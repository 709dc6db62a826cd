/-
# Taking over the owners of a contract

`WalletDomainService.updateWalletWithOnchainData` makes a wallet's owners those of
its contract. Owners are compared by address and inserted by role: a new owner that
is itself a stored wallet gets a role of its own, of which a wallet keeps only one
holder. To find out, the addresses of all stored wallets are read, also of those
that have none.
-/

import SafeWallet.Wallet.OwnerManager

namespace SafeWallet

/-! ## Owners that are missing on either side -/

/-- Erasing the elements of a list that satisfy a predicate, one by one, leaves the
others. -/
theorem foldl_erase_filter {α : Type} [DecidableEq α] (p : α → Bool) (l : List α) :
    (l.filter p).foldl List.erase l = l.filter fun a => !p a := by
  rw [← List.diff_eq_foldl]
  induction l with
  | nil => rfl
  | cons a rest ih =>
      by_cases ha : p a = true
      · rw [List.filter_cons_of_pos ha, List.filter_cons_of_neg (by simp [ha]), List.diff_cons,
          List.erase_cons_head, ih]
      · have hnot : a ∉ rest.filter p := fun h => ha (List.mem_filter.mp h).2
        rw [List.filter_cons_of_neg ha, List.filter_cons_of_pos (by simpa using ha),
          List.cons_diff_of_not_mem hnot, ih]

namespace Wallet

variable (wallet : Wallet) (remote : List Address)

/-- Remove the owners that a remote list, in lower case, does not have. -/
def removeMissing : Wallet :=
  { wallet with
    owners := (wallet.allOwners.filter fun owner => owner.address.normalized ∉ remote).foldl
      List.erase wallet.owners }

/-- The remote addresses that no owner has. -/
def additional : List Address :=
  remote.filter fun address => ∀ owner ∈ wallet.owners, owner.address.normalized ≠ address

/-- The owners that a remote list has too. -/
def known : List Owner := wallet.owners.filter fun owner => owner.address.normalized ∈ remote

theorem removeMissing_eq :
    wallet.removeMissing remote = { wallet with owners := wallet.known remote } := by
  have hperm : (wallet.allOwners.filter fun owner => owner.address.normalized ∉ remote).Perm
      (wallet.owners.filter fun owner => owner.address.normalized ∉ remote) :=
    (List.mergeSort_perm _ _).filter _
  rw [removeMissing, ← List.diff_eq_foldl, hperm.diff_left, List.diff_eq_foldl,
    foldl_erase_filter, known]
  congr 1
  apply List.filter_congr
  intro owner _
  simp

/-- What is added is what the owners that stay do not have. -/
theorem additional_removeMissing :
    (wallet.removeMissing remote).additional remote = wallet.additional remote := by
  rw [removeMissing_eq]
  apply List.filter_congr
  intro address hmem
  rw [Bool.eq_iff_iff, decide_eq_true_iff, decide_eq_true_iff]
  constructor
  · intro h owner howner heq
    exact h owner (List.mem_filter.mpr ⟨howner, by simpa [heq] using hmem⟩) heq
  · intro h owner howner
    exact h owner (List.mem_filter.mp howner).1

end Wallet

/-! ## The update -/

/-- `GnosisSafeContractProxy(contract).masterCopyAddress()`, or nothing if the node
throws. -/
def GnosisSafeContractProxy.masterCopyAddress (services : Services) (contract : Address) :
    Option Address :=
  (services.eth_getStorageAt contract 0).map ContractProxy.decodeAddress

/-- `version(masterCopyAddress:)`. -/
def SafeContractMetadata.version (metadata : SafeContractMetadata) (masterCopy : Address) :
    Option String :=
  (metadata.masterCopy.find? fun copy => copy.address.normalized = masterCopy.normalized).map
    MasterCopyMetadata.version

namespace WalletDomainService

variable (services : Services)

/-- Whether an address is that of a stored wallet. The scan ends at the first hit
and unwraps the address of every wallet before it. -/
def isPersonalSafe (address : Address) : List Wallet → Trapping Bool
  | [] => return false
  | wallet :: rest => do
    let other ← Trapping.unwrap wallet.address
    if other.normalized = address.normalized then return true else isPersonalSafe address rest

/-- Add the owners that only the contract has. -/
def addOwners (wallets : List Wallet) : List Address → Wallet → Trapping Wallet
  | [], wallet => return wallet
  | address :: rest, wallet => do
    let checksummed ← Trapping.unwrap (services.kit.formatted address.value)
    let personal ← isPersonalSafe address wallets
    addOwners wallets rest
      (wallet.addOwner ⟨checksummed, if personal then .personalSafe else .unknown⟩)

/-- The wallet as the contract has it. -/
def withOnchainData (wallets : List Wallet) (wallet : Wallet) (remote : List Address)
    (confirmationCount : ℕ) (masterCopy : Address) : Trapping Wallet := do
  let wallet := wallet.removeMissing remote
  let wallet ← addOwners services wallets (wallet.additional remote) wallet
  return { wallet with
    masterCopyAddress := some masterCopy
    confirmationCount := confirmationCount
    contractVersion := services.metadata.version masterCopy }

/-- `updateWalletWithOnchainData(_:)`. Its result and the repositories after it. -/
def updateWalletWithOnchainData (store : Store) (id : WalletID) : Trapping (Bool × Store) :=
  match store.wallets.find id with
  | none => return (false, store)
  | some wallet => do
    let address ← Trapping.unwrap wallet.address
    match ← SafeOwnerManagerContractProxy.getOwners services address with
    | none => return (false, store)
    | some owners =>
      match ← SafeOwnerManagerContractProxy.getThreshold services address with
      | none => return (false, store)
      | some confirmationCount =>
        match GnosisSafeContractProxy.masterCopyAddress services address with
        | none => return (false, store)
        | some masterCopy =>
          let updated ← withOnchainData services store.wallets.rows wallet
            (owners.map Address.normalized) confirmationCount masterCopy
          return (true, { store with wallets := store.wallets.save updated })

/-! ## What the scan finds -/

/-- A wallet has an address, in lower case. -/
def isAt (address : Address) (wallet : Wallet) : Bool :=
  wallet.address.any fun other => other.normalized = address

/-- An address is that of a stored wallet. -/
def Personal (wallets : List Wallet) (address : Address) : Prop :=
  ∃ wallet ∈ wallets, isAt address wallet = true

instance (wallets : List Wallet) (address : Address) : Decidable (Personal wallets address) :=
  List.decidableBEx (fun wallet => isAt address wallet = true) wallets

/-- No wallet without an address comes before the first wallet with this one. -/
def Scannable (wallets : List Wallet) (address : Address) : Prop :=
  ∀ before wallet after, wallets = before ++ wallet :: after → wallet.address = none →
    Personal before address

section Scan

variable {services} {wallets : List Wallet} {address : Address}

theorem scannable_cons_iff {wallet : Wallet} : Scannable (wallet :: wallets) address ↔
    wallet.address ≠ none ∧ (isAt address wallet = false → Scannable wallets address) := by
  constructor
  · intro h
    refine ⟨fun hnone => ?_, fun hother before next after hsplit hnone => ?_⟩
    · obtain ⟨_, hmem, -⟩ := h [] wallet wallets rfl hnone
      cases hmem
    · obtain ⟨found, hmem, hfound⟩ := h (wallet :: before) next after (by rw [hsplit]; rfl) hnone
      rcases List.mem_cons.mp hmem with rfl | hmem
      · rw [hother] at hfound
        cases hfound
      · exact ⟨found, hmem, hfound⟩
  · rintro ⟨hsome, hrest⟩ before next after hsplit hnone
    cases before with
    | nil =>
        cases hsplit
        exact absurd hnone hsome
    | cons first before =>
        cases hsplit
        by_cases hat : isAt address wallet = true
        · exact ⟨wallet, List.mem_cons_self, hat⟩
        · obtain ⟨found, hmem, hfound⟩ := hrest (by simpa using hat) before next after rfl hnone
          exact ⟨found, List.mem_cons_of_mem _ hmem, hfound⟩

/-- The scan ends exactly if it can pass over the wallets before its hit. -/
theorem isPersonalSafe_eq_ok_iff (haddress : address.normalized = address) {b : Bool} :
    isPersonalSafe address wallets = .ok b ↔
      Scannable wallets address ∧ b = decide (Personal wallets address) := by
  induction wallets with
  | nil =>
      have hscan : Scannable [] address := by
        intro before wallet after hsplit
        simp at hsplit
      have hnone : ¬ Personal [] address := fun ⟨_, hmem, _⟩ => nomatch hmem
      simp only [isPersonalSafe, Trapping.pure_eq_ok, Except.ok.injEq, hscan, true_and, hnone,
        decide_false]
      exact eq_comm
  | cons wallet rest ih =>
      rw [scannable_cons_iff]
      cases hwallet : wallet.address with
      | none => simp [isPersonalSafe, hwallet]
      | some other =>
          by_cases hat : other.normalized = address
          · have hpersonal : Personal (wallet :: rest) address :=
              ⟨wallet, List.mem_cons_self, by simp [isAt, hwallet, hat]⟩
            simp [isPersonalSafe, hwallet, hat, haddress, isAt, hpersonal, eq_comm]
          · have hpersonal : Personal (wallet :: rest) address ↔ Personal rest address := by
              simp [Personal, isAt, hwallet, hat]
            simp [isPersonalSafe, hwallet, hat, haddress, isAt, hpersonal, ih]

end Scan

/-! ## The owners after the update -/

section Added

variable {services} {wallets : List Wallet} {wallet wallet' : Wallet} {added : List Address}

/-- The owner a remote address becomes. -/
def remoteOwner (services : Services) (wallets : List Wallet) (address : Address) : Owner :=
  ⟨services.kit.checksummed address.data,
    if Personal wallets address then .personalSafe else .unknown⟩

/-- A wallet after some remote addresses became owners. -/
def withRemoteOwners (services : Services) (wallets : List Wallet) (added : List Address)
    (wallet : Wallet) : Wallet :=
  added.foldl (fun w a => w.addOwner (remoteOwner services wallets a)) wallet

/-- A text as the chain's addresses are written. -/
def Plain (address : Address) : Prop := address.WellFormed ∧ address.normalized = address

theorem normalized_remoteOwner {address : Address} (h : Plain address) :
    (remoteOwner services wallets address).address.normalized = address := by
  obtain ⟨hwf, hvalue⟩ := services.kit.checksummed_spec h.1.data_spec.1
  have hchecksummed : (remoteOwner services wallets address).address.normalized =
      Address.ofUInt address.toUInt := by
    rw [remoteOwner, hwf.normalized_eq_ofUInt, hvalue]
    rfl
  rw [hchecksummed, ← h.1.normalized_eq_ofUInt, h.2]

theorem addOwners_eq_ok_iff (hplain : ∀ address ∈ added, Plain address) :
    addOwners services wallets added wallet = .ok wallet' ↔
      (∀ address ∈ added, Scannable wallets address) ∧
        wallet' = withRemoteOwners services wallets added wallet := by
  induction added generalizing wallet with
  | nil => simp [addOwners, withRemoteOwners, eq_comm]
  | cons address rest ih =>
      have hhead := hplain address List.mem_cons_self
      have hformatted : services.kit.formatted address.value =
          some (services.kit.checksummed address.data) := by
        obtain ⟨b, hb, rfl, -⟩ := services.kit.formatted_of_wellFormed hhead.1
        exact hb
      simp only [addOwners, hformatted, Trapping.unwrap_some, Trapping.ok_bind,
        Trapping.bind_eq_ok_iff, isPersonalSafe_eq_ok_iff hhead.2, List.forall_mem_cons,
        withRemoteOwners, List.foldl_cons]
      constructor
      · rintro ⟨_, ⟨hscan, rfl⟩, h⟩
        obtain ⟨hrest, hresult⟩ := (ih fun a ha => hplain a (List.mem_cons_of_mem _ ha)).mp h
        exact ⟨⟨hscan, hrest⟩, by simpa [remoteOwner, withRemoteOwners] using hresult⟩
      · rintro ⟨⟨hscan, hrest⟩, hresult⟩
        refine ⟨_, ⟨hscan, rfl⟩, (ih fun a ha => hplain a (List.mem_cons_of_mem _ ha)).mpr ?_⟩
        exact ⟨hrest, by simpa [remoteOwner, withRemoteOwners] using hresult⟩

@[simp]
theorem withRemoteOwners_id : (withRemoteOwners services wallets added wallet).id = wallet.id := by
  induction added generalizing wallet with
  | nil => rfl
  | cons address rest ih => exact ih.trans (Wallet.addOwner_id _)

/-- At most one holder of the role of stored wallets among what is known and added. -/
def Compatible (wallets : List Wallet) (owners : List Owner) (added : List Address) : Prop :=
  (∀ owner ∈ owners, owner.role = .personalSafe → ∀ address ∈ added, ¬ Personal wallets address) ∧
    added.Pairwise fun first second => ¬ (Personal wallets first ∧ Personal wallets second)

/-- Compatible owners are only appended. -/
theorem withRemoteOwners_of_compatible (h : Compatible wallets wallet.owners added) :
    withRemoteOwners services wallets added wallet =
      { wallet with owners := wallet.owners ++ added.map (remoteOwner services wallets) } := by
  induction added generalizing wallet with
  | nil => simp [withRemoteOwners]
  | cons address rest ih =>
      obtain ⟨hknown, hadded⟩ := h
      obtain ⟨hfirst, hrest⟩ := List.pairwise_cons.mp hadded
      have hstep : wallet.addOwner (remoteOwner services wallets address) =
          { wallet with owners := wallet.owners ++ [remoteOwner services wallets address] } := by
        by_cases hpersonal : Personal wallets address
        · have hkeep : wallet.owners.filter (fun owner => owner.role ≠ .personalSafe) =
              wallet.owners := by
            rw [List.filter_eq_self]
            intro owner howner
            simp only [ne_eq, decide_not, Bool.not_eq_true', decide_eq_false_iff_not]
            exact fun hrole => hknown owner howner hrole address List.mem_cons_self hpersonal
          simp only [Wallet.addOwner, remoteOwner, hpersonal, ↓reduceIte, reduceCtorEq,
            Wallet.removeOwner, hkeep]
        · simp [Wallet.addOwner, remoteOwner, hpersonal]
      rw [withRemoteOwners, List.foldl_cons, hstep, ← withRemoteOwners, ih]
      · simp
      · refine ⟨fun owner howner hrole a ha => ?_, hrest⟩
        rcases List.mem_append.mp howner with howner | howner
        · exact hknown owner howner hrole a (List.mem_cons_of_mem _ ha)
        · cases List.mem_singleton.mp howner
          intro hpersonal
          refine hfirst a ha ⟨?_, hpersonal⟩
          by_contra hnot
          simp [remoteOwner, hnot] at hrole

/-- Every owner after the update was there or was added. -/
theorem mem_withRemoteOwners {owner : Owner}
    (h : owner ∈ (withRemoteOwners services wallets added wallet).owners) :
    owner ∈ wallet.owners ∨ ∃ address ∈ added, owner = remoteOwner services wallets address := by
  induction added generalizing wallet with
  | nil => exact .inl h
  | cons address rest ih =>
      rcases ih h with hmem | ⟨a, ha, rfl⟩
      · rcases Wallet.mem_addOwner.mp hmem with ⟨hmem, -⟩ | rfl
        · exact .inl hmem
        · exact .inr ⟨address, List.mem_cons_self, rfl⟩
      · exact .inr ⟨a, List.mem_cons_of_mem _ ha, rfl⟩

/-- Once a stored wallet was added, there is one holder of its role. -/
theorem personalSafe_unique (hadded : ∃ address ∈ added, Personal wallets address)
    {first second : Owner}
    (hfirst : first ∈ (withRemoteOwners services wallets added wallet).owners)
    (hsecond : second ∈ (withRemoteOwners services wallets added wallet).owners)
    (hrole : first.role = .personalSafe ∧ second.role = .personalSafe) : first = second := by
  induction added generalizing wallet with
  | nil =>
      obtain ⟨_, hmem, -⟩ := hadded
      cases hmem
  | cons address rest ih =>
      by_cases hrest : ∃ a ∈ rest, Personal wallets a
      · exact ih hrest hfirst hsecond
      · -- the last stored wallet is added here, and no later owner gets its role
        have hpersonal : Personal wallets address := by
          obtain ⟨a, ha, hpersonal⟩ := hadded
          rcases List.mem_cons.mp ha with rfl | ha
          · exact hpersonal
          · exact absurd ⟨a, ha, hpersonal⟩ hrest
        have hone : ∀ owner, owner.role = .personalSafe →
            owner ∈ (withRemoteOwners services wallets rest
              (wallet.addOwner (remoteOwner services wallets address))).owners →
            owner = remoteOwner services wallets address := by
          intro owner howner hmem
          rcases mem_withRemoteOwners hmem with hmem | ⟨a, ha, rfl⟩
          · rcases Wallet.mem_addOwner.mp hmem with ⟨-, hother⟩ | rfl
            · simp [remoteOwner, hpersonal, howner] at hother
            · rfl
          · have hnot : ¬ Personal wallets a := fun h => hrest ⟨a, ha, h⟩
            simp [remoteOwner, hnot] at howner
        rw [hone first hrole.1 hfirst, hone second hrole.2 hsecond]

end Added

/-! ## The owners of the contract -/

/-- A Safe on the chain. Its owners are few enough to be counted in bytes. -/
structure SafeContract where
  manager : OwnerManager
  masterCopy : ChainAddress
  threshold_le : manager.threshold.toNat ≤ manager.owners.length
  fits : manager.owners.length * 32 < 2 ^ 63

/-- The owners as the program reads them. -/
def SafeContract.remote (safe : SafeContract) : List Address :=
  safe.manager.owners.map Address.ofChain

/-- Every query of the contract is answered with its state, or throws. -/
structure Reports (services : Services) (contract : Address) (safe : SafeContract) : Prop where
  getOwners : ∀ answer,
    services.eth_call contract (ContractProxy.invocation services.kit "getOwners()" []) =
      some answer → answer = ContractProxy.encodeArrayUInt (safe.manager.owners.map BitVec.toNat)
  getThreshold : ∀ answer,
    services.eth_call contract (ContractProxy.invocation services.kit "getThreshold()" []) =
      some answer → answer = ContractProxy.encodeUInt safe.manager.threshold.toNat
  masterCopy : ∀ answer, services.eth_getStorageAt contract 0 = some answer →
    answer = ContractProxy.encodeUInt safe.masterCopy.toNat

/-- No query throws. -/
structure Answered (services : Services) (contract : Address) : Prop where
  getOwners : (services.eth_call contract
    (ContractProxy.invocation services.kit "getOwners()" [])).isSome
  getThreshold : (services.eth_call contract
    (ContractProxy.invocation services.kit "getThreshold()" [])).isSome
  masterCopy : (services.eth_getStorageAt contract 0).isSome

/-- The wallet after an update has the owners of the contract, each once, with the
roles that were known before, and the contract's threshold and master copy. -/
structure MatchesContract (wallet wallet' : Wallet) (safe : SafeContract) : Prop where
  owners : (wallet'.owners.map fun owner => owner.address.normalized).Perm safe.remote
  roles : ∀ owner ∈ wallet.known safe.remote, ∃ owner' ∈ wallet'.owners,
    owner'.address.normalized = owner.address.normalized ∧ owner'.role = owner.role
  threshold : wallet'.confirmationCount = safe.manager.threshold.toNat
  masterCopy : wallet'.masterCopyAddress = some (Address.ofChain safe.masterCopy)

/-- The update ends, and when it answers that it has updated, the stored wallet is
as the contract. -/
def Refreshes (services : Services) (store : Store) (id : WalletID) (safe : SafeContract) : Prop :=
  ∃ result store', updateWalletWithOnchainData services store id = .ok (result, store') ∧
    (result = true → ∃ wallet wallet', store.wallets.find id = some wallet ∧
      store'.wallets.find id = some wallet' ∧ MatchesContract wallet wallet' safe)

/-- The known owners are different, the stored wallets can be scanned for each new
one, and at most one owner is a stored wallet. -/
structure Refreshable (wallets : List Wallet) (wallet : Wallet) (remote : List Address) :
    Prop where
  distinct : ((wallet.known remote).map fun owner => owner.address.normalized).Nodup
  scannable : ∀ address ∈ wallet.additional remote, Scannable wallets address
  compatible : Compatible wallets (wallet.known remote) (wallet.additional remote)

section Refresh

variable {services} {wallets : List Wallet} {wallet wallet' : Wallet} {safe : SafeContract}

theorem SafeContract.plain_remote {address : Address} (h : address ∈ safe.remote) :
    Plain address := by
  obtain ⟨owner, -, rfl⟩ := List.mem_map.mp h
  exact ⟨(Address.ofChain_spec owner).1, Address.normalized_ofChain owner⟩

theorem SafeContract.nodup_remote : safe.remote.Nodup :=
  safe.manager.nodup.map Address.ofChain_injective

/-- The known owners and the additional addresses make up the contract's owners. -/
theorem known_append_additional_perm
    (h : ((wallet.known safe.remote).map fun owner => owner.address.normalized).Nodup) :
    ((wallet.known safe.remote).map (fun owner => owner.address.normalized) ++
      wallet.additional safe.remote).Perm safe.remote := by
  have hdisjoint : ∀ address ∈ (wallet.known safe.remote).map fun owner => owner.address.normalized,
      address ∉ wallet.additional safe.remote := by
    intro address hmem hadditional
    obtain ⟨owner, howner, rfl⟩ := List.mem_map.mp hmem
    have hnone := of_decide_eq_true (List.mem_filter.mp hadditional).2
    exact hnone owner (List.mem_filter.mp howner).1 rfl
  apply (List.perm_ext_iff_of_nodup _ SafeContract.nodup_remote).mpr
  · intro address
    simp only [List.mem_append, List.mem_map, Wallet.known, Wallet.additional, List.mem_filter,
      decide_eq_true_eq]
    constructor
    · rintro (⟨owner, ⟨-, hmem⟩, rfl⟩ | ⟨hmem, -⟩)
      · exact hmem
      · exact hmem
    · intro hmem
      by_cases hknown : ∃ owner ∈ wallet.owners, owner.address.normalized = address
      · obtain ⟨owner, howner, rfl⟩ := hknown
        exact .inl ⟨owner, ⟨howner, hmem⟩, rfl⟩
      · exact .inr ⟨hmem, fun owner howner heq => hknown ⟨owner, howner, heq⟩⟩
  · refine List.nodup_append.mpr ⟨h, SafeContract.nodup_remote.filter _, ?_⟩
    intro address hmem other hother heq
    exact hdisjoint address hmem (heq ▸ hother)

theorem withOnchainData_eq_ok_iff {count : ℕ} {masterCopy : Address} :
    withOnchainData services wallets wallet safe.remote count masterCopy = .ok wallet' ↔
      (∀ address ∈ wallet.additional safe.remote, Scannable wallets address) ∧
        wallet' = { withRemoteOwners services wallets (wallet.additional safe.remote)
            { wallet with owners := wallet.known safe.remote } with
          masterCopyAddress := some masterCopy
          confirmationCount := count
          contractVersion := services.metadata.version masterCopy } := by
  have hplain : ∀ address ∈ wallet.additional safe.remote, Plain address :=
    fun address h => SafeContract.plain_remote (List.mem_filter.mp h).1
  simp only [withOnchainData, Wallet.additional_removeMissing]
  simp only [Wallet.removeMissing_eq, Trapping.bind_eq_ok_iff, addOwners_eq_ok_iff hplain,
    Trapping.pure_eq_ok, Except.ok.injEq]
  constructor
  · rintro ⟨_, ⟨hscan, rfl⟩, rfl⟩
    exact ⟨hscan, rfl⟩
  · rintro ⟨hscan, rfl⟩
    exact ⟨_, ⟨hscan, rfl⟩, rfl⟩

theorem id_withOnchainData {count : ℕ} {masterCopy : Address}
    (h : withOnchainData services wallets wallet safe.remote count masterCopy = .ok wallet') :
    wallet'.id = wallet.id := by
  rw [(withOnchainData_eq_ok_iff.mp h).2]
  exact withRemoteOwners_id

/-- An additional address belongs to none of the known owners. -/
theorem ne_of_additional {address : Address} (h : address ∈ wallet.additional safe.remote)
    {owner : Owner} (howner : owner ∈ wallet.known safe.remote) :
    owner.address.normalized ≠ address :=
  of_decide_eq_true (List.mem_filter.mp h).2 owner (List.mem_filter.mp howner).1

/-- Adding the additional owners to the known ones gives the contract's owners with
their roles exactly if the known ones are different and no role is taken away. -/
theorem owners_match_iff {final : List Owner}
    (hfinal : final = (withRemoteOwners services wallets (wallet.additional safe.remote)
      { wallet with owners := wallet.known safe.remote }).owners) :
    ((final.map fun owner => owner.address.normalized).Perm safe.remote ∧
      ∀ owner ∈ wallet.known safe.remote, ∃ owner' ∈ final,
        owner'.address.normalized = owner.address.normalized ∧ owner'.role = owner.role) ↔
      ((wallet.known safe.remote).map fun owner => owner.address.normalized).Nodup ∧
        Compatible wallets (wallet.known safe.remote) (wallet.additional safe.remote) := by
  have hnormalized : ∀ address ∈ wallet.additional safe.remote,
      (remoteOwner services wallets address).address.normalized = address :=
    fun address h =>
      normalized_remoteOwner (SafeContract.plain_remote (List.mem_filter.mp h).1)
  have hfixed : Compatible wallets (wallet.known safe.remote) (wallet.additional safe.remote) →
      final = wallet.known safe.remote ++
        (wallet.additional safe.remote).map (remoteOwner services wallets) := by
    intro hcompatible
    rw [hfinal, withRemoteOwners_of_compatible hcompatible]
  have haddresses : ((wallet.additional safe.remote).map (remoteOwner services wallets)).map
      (fun owner => owner.address.normalized) = wallet.additional safe.remote := by
    rw [List.map_map]
    exact (List.map_congr_left hnormalized).trans (List.map_id _)
  constructor
  · rintro ⟨hperm, hroles⟩
    -- every additional address is there, and only as the owner it was added as
    have hentry : ∀ address ∈ wallet.additional safe.remote,
        remoteOwner services wallets address ∈ final := by
      intro address haddress
      obtain ⟨owner, howner, heq⟩ :=
        List.mem_map.mp (hperm.mem_iff.mpr (List.mem_filter.mp haddress).1)
      rw [hfinal] at howner
      rcases mem_withRemoteOwners howner with hknown | ⟨a, ha, rfl⟩
      · exact absurd heq (ne_of_additional haddress hknown)
      · rw [hnormalized a ha] at heq
        rw [heq] at howner
        rwa [hfinal]
    have hrole : ∀ address, Personal wallets address →
        (remoteOwner services wallets address).role = .personalSafe :=
      fun address h => by simp [remoteOwner, h]
    have hcompatible : Compatible wallets (wallet.known safe.remote)
        (wallet.additional safe.remote) := by
      constructor
      · intro owner howner hpersonal address haddress hstored
        obtain ⟨owner', howner', heq, hsame⟩ := hroles owner howner
        have hsingle : owner' = remoteOwner services wallets address := by
          have hmem := hentry address haddress
          rw [hfinal] at howner' hmem
          exact personalSafe_unique ⟨address, haddress, hstored⟩ howner' hmem
            ⟨hsame.trans hpersonal, hrole address hstored⟩
        apply ne_of_additional haddress howner
        rw [← heq, hsingle, hnormalized address haddress]
      · have hnodup : (wallet.additional safe.remote).Pairwise (· ≠ ·) :=
          SafeContract.nodup_remote.filter _
        apply hnodup.imp_of_mem
        rintro first second hfirst hsecond hne ⟨hstored, hstored'⟩
        apply hne
        have hsingle : remoteOwner services wallets first = remoteOwner services wallets second := by
          have hmem := hentry first hfirst
          have hmem' := hentry second hsecond
          rw [hfinal] at hmem hmem'
          exact personalSafe_unique ⟨first, hfirst, hstored⟩ hmem hmem'
            ⟨hrole first hstored, hrole second hstored'⟩
        rw [← hnormalized first hfirst, hsingle, hnormalized second hsecond]
    refine ⟨?_, hcompatible⟩
    have hnodup := hperm.nodup_iff.mpr SafeContract.nodup_remote
    rw [hfixed hcompatible, List.map_append] at hnodup
    exact (List.nodup_append.mp hnodup).1
  · rintro ⟨hdistinct, hcompatible⟩
    rw [hfixed hcompatible]
    constructor
    · rw [List.map_append, haddresses]
      exact known_append_additional_perm hdistinct
    · intro owner howner
      exact ⟨owner, List.mem_append_left _ howner, rfl, rfl⟩

/-- The owners are read, unless the query throws. -/
theorem getOwners_of_reports {contract : Address} (hreports : Reports services contract safe) :
    SafeOwnerManagerContractProxy.getOwners services contract =
      .ok ((services.eth_call contract
        (ContractProxy.invocation services.kit "getOwners()" [])).map fun _ => safe.remote) := by
  cases hcall : services.eth_call contract
      (ContractProxy.invocation services.kit "getOwners()" []) with
  | none => simp [SafeOwnerManagerContractProxy.getOwners, hcall]
  | some answer =>
      rw [hreports.getOwners answer hcall] at hcall
      rw [SafeOwnerManagerContractProxy.getOwners_of_call hcall, if_pos safe.fits]
      rfl

theorem getThreshold_of_reports {contract : Address} (hreports : Reports services contract safe) :
    SafeOwnerManagerContractProxy.getThreshold services contract =
      .ok ((services.eth_call contract
        (ContractProxy.invocation services.kit "getThreshold()" [])).map
          fun _ => safe.manager.threshold.toNat) := by
  have hlt : safe.manager.threshold.toNat < 2 ^ 63 := by
    have := safe.threshold_le
    have := safe.fits
    omega
  cases hcall : services.eth_call contract
      (ContractProxy.invocation services.kit "getThreshold()" []) with
  | none => simp [SafeOwnerManagerContractProxy.getThreshold, hcall]
  | some answer =>
      rw [hreports.getThreshold answer hcall] at hcall
      rw [SafeOwnerManagerContractProxy.getThreshold_of_call hcall, Trapping.toInt_of_lt hlt]
      rfl

theorem masterCopyAddress_of_reports {contract : Address}
    (hreports : Reports services contract safe) :
    GnosisSafeContractProxy.masterCopyAddress services contract =
      (services.eth_getStorageAt contract 0).map fun _ => Address.ofChain safe.masterCopy := by
  rw [GnosisSafeContractProxy.masterCopyAddress]
  cases hcall : services.eth_getStorageAt contract 0 with
  | none => simp
  | some answer =>
      have hlt := safe.masterCopy.isLt
      have hword := ContractProxy.decodeUInt_encodeUInt safe.masterCopy.toNat []
      rw [List.append_nil, Nat.mod_eq_of_lt (hlt.trans (by norm_num))] at hword
      rw [Option.map_some, Option.map_some, hreports.masterCopy answer hcall,
        ContractProxy.decodeAddress, hword, Address.ofChain]

/-- The update of a stored wallet with an address. -/
theorem update_eq {store : Store} {id : WalletID} {contract : Address}
    (hfind : store.wallets.find id = some wallet) (haddress : wallet.address = some contract)
    (hreports : Reports services contract safe) :
    (¬ Answered services contract ∧
      updateWalletWithOnchainData services store id = .ok (false, store)) ∨
    (Answered services contract ∧ updateWalletWithOnchainData services store id = (do
      let updated ← withOnchainData services store.wallets.rows wallet safe.remote
        safe.manager.threshold.toNat (Address.ofChain safe.masterCopy)
      return (true, { store with wallets := store.wallets.save updated }))) := by
  have hremote : safe.remote.map Address.normalized = safe.remote :=
    (List.map_congr_left fun a ha => (SafeContract.plain_remote ha).2).trans (List.map_id _)
  simp only [updateWalletWithOnchainData, hfind, haddress, Trapping.unwrap_some, Trapping.ok_bind,
    getOwners_of_reports hreports, getThreshold_of_reports hreports,
    masterCopyAddress_of_reports hreports]
  cases howners : services.eth_call contract
      (ContractProxy.invocation services.kit "getOwners()" []) with
  | none =>
      refine .inl ⟨fun h => ?_, rfl⟩
      simpa [howners] using h.getOwners
  | some owners =>
      cases hthreshold : services.eth_call contract
          (ContractProxy.invocation services.kit "getThreshold()" []) with
      | none =>
          refine .inl ⟨fun h => ?_, rfl⟩
          simpa [hthreshold] using h.getThreshold
      | some threshold =>
          cases hmasterCopy : services.eth_getStorageAt contract 0 with
          | none =>
              refine .inl ⟨fun h => ?_, rfl⟩
              simpa [hmasterCopy] using h.masterCopy
          | some masterCopy =>
              refine .inr ⟨⟨by simp [howners], by simp [hthreshold], by simp [hmasterCopy]⟩, ?_⟩
              simp only [Option.map_some, hremote]

/-- The wallet an update stores is as the contract exactly if it could be. -/
theorem matchesContract_iff (hupdated : withOnchainData services wallets wallet safe.remote
      safe.manager.threshold.toNat (Address.ofChain safe.masterCopy) = .ok wallet') :
    MatchesContract wallet wallet' safe ↔ Refreshable wallets wallet safe.remote := by
  obtain ⟨hscan, rfl⟩ := withOnchainData_eq_ok_iff.mp hupdated
  have howners := @owners_match_iff services wallets wallet safe _ rfl
  constructor
  · intro h
    obtain ⟨hdistinct, hcompatible⟩ := howners.mp ⟨h.owners, h.roles⟩
    exact ⟨hdistinct, hscan, hcompatible⟩
  · intro h
    obtain ⟨hperm, hroles⟩ := howners.mpr ⟨h.distinct, h.compatible⟩
    exact ⟨hperm, hroles, rfl, rfl⟩

/-- Exactly when an update does what it is for. -/
theorem refreshes_iff_refreshable {store : Store} {id : WalletID}
    (hreports : ∀ wallet contract, store.wallets.find id = some wallet →
      wallet.address = some contract → Reports services contract safe) :
    Refreshes services store id safe ↔ ∀ wallet, store.wallets.find id = some wallet →
      ∃ contract, wallet.address = some contract ∧
        (Answered services contract → Refreshable store.wallets.rows wallet safe.remote) := by
  cases hfind : store.wallets.find id with
  | none =>
      simp only [reduceCtorEq, IsEmpty.forall_iff, implies_true, iff_true]
      exact ⟨false, store, by simp [updateWalletWithOnchainData, hfind], by simp⟩
  | some wallet =>
      simp only [Option.some.injEq, forall_eq']
      cases haddress : wallet.address with
      | none =>
          have htrap : updateWalletWithOnchainData services store id = .error .forcedUnwrap := by
            simp [updateWalletWithOnchainData, hfind, haddress]
          simp [Refreshes, htrap]
      | some contract =>
          have hcontract := hreports wallet contract hfind haddress
          simp only [Option.some.injEq, exists_eq_left']
          rcases update_eq hfind haddress hcontract with ⟨hnot, heq⟩ | ⟨hanswered, heq⟩
          · exact ⟨fun _ h => absurd h hnot, fun _ => ⟨false, store, heq, by simp⟩⟩
          · have hid : wallet.id = id := (Table.mem_of_find hfind).2
            constructor
            · rintro ⟨result, store', hresult, hmatches⟩ _
              rw [heq, Trapping.bind_eq_ok_iff] at hresult
              obtain ⟨updated, hupdated, hresult⟩ := hresult
              cases hresult
              obtain ⟨wallet₁, wallet', hfind₁, hfind', hmatch⟩ := hmatches rfl
              cases hfind.symm.trans hfind₁
              have hsaved : updated.id = id := (id_withOnchainData hupdated).trans hid
              rw [← hsaved, Table.find_save_self] at hfind'
              cases hfind'
              exact (matchesContract_iff hupdated).mp hmatch
            · intro hrefreshable
              have hrefreshable := hrefreshable hanswered
              obtain ⟨updated, hupdated⟩ : ∃ updated, withOnchainData services store.wallets.rows
                  wallet safe.remote safe.manager.threshold.toNat
                  (Address.ofChain safe.masterCopy) = .ok updated :=
                ⟨_, withOnchainData_eq_ok_iff.mpr ⟨hrefreshable.scannable, rfl⟩⟩
              have hmatch := (matchesContract_iff hupdated).mpr hrefreshable
              refine ⟨_, _, by rw [heq, hupdated, Trapping.ok_bind, Trapping.pure_eq_ok], ?_⟩
              refine fun _ => ⟨wallet, updated, hfind, ?_, hmatch⟩
              rw [← id_withOnchainData hupdated] at hid
              rw [← hid]
              exact Table.find_save_self

end Refresh

/-- The update makes a stored wallet as its contract exactly if the wallet has an
address and, unless a query throws, its known owners are different, no wallet
without an address is met while looking for the new ones, and the role of stored
wallets is needed once. -/
theorem refreshes_iff {services : Services} {store : Store} {id : WalletID} {safe : SafeContract}
    (hreports : ∀ wallet contract, store.wallets.find id = some wallet →
      wallet.address = some contract → Reports services contract safe) :
    Refreshes services store id safe ↔ ∀ wallet, store.wallets.find id = some wallet →
      ∃ contract, wallet.address = some contract ∧
        (Answered services contract → Refreshable store.wallets.rows wallet safe.remote) :=
  refreshes_iff_refreshable hreports

/-! ## A wallet that was just loaded -/

/-- The library's hashes of the two queries. -/
def queryKit : EthereumKit := .ofRecording
  ⟨[(ContractProxy.ascii "getOwners()", Data.ofEthHex
      "0xa0e67e2bdc0a6d8a09ccd6c353c9df590807ad66ff5e6630c4f31a86dfa84821".toList),
    (ContractProxy.ascii "getThreshold()", Data.ofEthHex
      "0xe75235b8e3646246bff01a77976826b2f4773b4878796da11bfdcd9fbd68e83f".toList)], [], [], []⟩

/-- A contract with two owners. -/
def loadedSafe : SafeContract where
  manager := {
    owners := [2, 3]
    threshold := 2
    nodup := by decide
    valid := by simp }
  masterCopy := 4
  threshold_le := by simp
  fits := by simp

/-- A node that answers about it, whatever the address. -/
def loadedServices : Services :=
  { Services.offline queryKit ⟨Address.zero, [], []⟩ with
    eth_call := fun _ data =>
      if data = ContractProxy.invocation queryKit "getOwners()" [] then
        some (ContractProxy.encodeArrayUInt (loadedSafe.manager.owners.map BitVec.toNat))
      else some (ContractProxy.encodeUInt loadedSafe.manager.threshold.toNat)
    eth_getStorageAt := fun _ _ => some (ContractProxy.encodeUInt loadedSafe.masterCopy.toNat) }

theorem loadedServices_reports (contract : Address) :
    Reports loadedServices contract loadedSafe where
  getOwners answer h := by simpa [loadedServices, Services.offline, eq_comm] using h
  getThreshold answer h := by
    have hne : ContractProxy.invocation queryKit "getThreshold()" [] ≠
        ContractProxy.invocation queryKit "getOwners()" [] := by decide +kernel
    simpa [loadedServices, Services.offline, hne, eq_comm] using h
  masterCopy answer h := by simpa [loadedServices, eq_comm] using h

/-- The wallet as `createAndSelectMultisigWallet` first saves it. -/
def loadedWallet : Wallet where
  id := "loaded"
  state := .readyToUse
  owners := []
  address := some ⟨"0x5aAeb6053F3E94C9b9A09f33669435E7Ef1BeAed"⟩
  feePaymentTokenAddress := none
  confirmationCount := 1
  masterCopyAddress := none
  type := .multisig

/-- Repositories with some wallets of different identifiers. -/
def walletStore (wallets : List Wallet) (h : (wallets.map Wallet.id).Nodup) : Store :=
  .ofWallets ⟨wallets, h⟩ .empty

/-- The first update of a loaded wallet, the only one stored. -/
theorem loadedWallet_refreshes :
    Refreshes loadedServices (walletStore [loadedWallet] (by decide)) "loaded" loadedSafe := by
  apply (refreshes_iff fun _ contract _ _ => loadedServices_reports contract).mpr
  rintro wallet hfind
  obtain rfl : loadedWallet = wallet := Option.some.inj hfind
  refine ⟨_, rfl, fun _ => ⟨List.nodup_nil, fun address _ => ?_, ?_, ?_⟩⟩
  · intro before wallet after hsplit hnone
    cases before with
    | nil =>
        cases hsplit
        cases hnone
    | cons first before => simp [walletStore, Store.ofWallets] at hsplit
  · intro owner howner
    cases howner
  · decide +kernel

/-- A new wallet that has no address yet. -/
def newDraft : Wallet where
  id := "draft"
  state := .draft
  owners := [⟨⟨"0x6810e776880C02933D47DB1b9fc05908e5386b96"⟩, .thisDevice⟩]
  address := none
  feePaymentTokenAddress := none
  confirmationCount := 1
  masterCopyAddress := none

/-- While a draft without an address is stored, loading stops the program. -/
theorem draft_stops_refresh :
    ¬ Refreshes loadedServices (walletStore [newDraft, loadedWallet] (by decide)) "loaded"
      loadedSafe := by
  intro h
  obtain ⟨contract, hcontract, hrefreshable⟩ :=
    (refreshes_iff_refreshable fun _ contract _ _ => loadedServices_reports contract).mp h
      loadedWallet rfl
  have hanswered : Answered loadedServices contract :=
    ⟨by simp [loadedServices]; split <;> rfl, by simp [loadedServices]; split <;> rfl, rfl⟩
  have hadditional : Address.ofChain 2 ∈ loadedWallet.additional loadedSafe.remote := by
    simp [Wallet.additional, loadedWallet, SafeContract.remote, loadedSafe]
  obtain ⟨_, hmem, -⟩ := (hrefreshable hanswered).scannable _ hadditional [] newDraft
    [loadedWallet] rfl rfl
  cases hmem

end WalletDomainService

end SafeWallet
