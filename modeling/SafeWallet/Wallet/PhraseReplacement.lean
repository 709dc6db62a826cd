/-
# Replacing the recovery phrase

The service takes the owners of the contract that are neither this device nor an
authenticator, in the order in which a set is enumerated, and swaps the first two of
them for the owners of the new phrase. These are the owners of the old phrase exactly
when the contract has no others that are left over: a further owner, which the wallet
knows under no role or as unknown, may be swapped in their place.
-/

import Mathlib.Data.List.Permutation
import SafeWallet.Wallet.OwnerPayloads

namespace SafeWallet

open SafeOwnerManagerContractProxy

/-- The order in which one address comes first. -/
def Enumeration.putFirst (address : Address) : Enumeration where
  array set := if address ∈ set then address :: set.erase address else set
  perm set := by
    split
    · rename_i hmem
      exact (List.perm_cons_erase hmem).symm
    · exact .refl set

namespace ReplaceRecoveryPhraseDomainService

open ReplaceTwoFADomainService

/-- The owners of the contract that the service may replace. -/
def replaceableOwners (wallet : Wallet) (owners : List ChainAddress) : List ChainAddress :=
  owners.filter fun owner => Address.ofChain owner ∉ readOnlyOwners wallet

/-- A phrase of the selected wallet that is to be replaced: the node reports the owners of the
contract, the phrase's owners are among them, and the new ones can be made owners. -/
structure PhraseChange (services : Services)
    (derive : ExternallyOwnedAccount → ExternallyOwnedAccount) (store : Store) (wallet : Wallet)
    (walletAddress newAddress : Address) (account : ExternallyOwnedAccount) (paper derived : Owner)
    (manager : OwnerManager) : Prop where
  selectors : OwnerSelectors services.kit
  wallet_eq : store.selectedWallet = some wallet
  address_eq : wallet.address = some walletAddress
  address_wellFormed : walletAddress.WellFormed
  owners_eq : getOwners services walletAddress = .ok (some (manager.owners.map Address.ofChain))
  paper_eq : wallet.owner .paperWallet = some paper
  derived_eq : wallet.owner .paperWalletDerived = some derived
  paper_mem : paper.address.onChain ∈ manager.owners
  derived_mem : derived.address.onChain ∈ manager.owners
  account_eq : store.externallyOwnedAccounts.find newAddress = some account
  new_wellFormed : account.address.WellFormed ∧ (derive account).address.WellFormed
  new_add : manager.CanAdd account.address.onChain ∧
    manager.CanAdd (derive account).address.onChain
  new_ne : account.address.onChain ≠ (derive account).address.onChain

/-- The transaction data is a batch of two calls to the wallet which, one after the other, put
the two new addresses in the places of the owners of the phrase. -/
def ReplacesPhrase (services : Services) (manager : OwnerManager) (walletAddress : Address)
    (paper derived new₁ new₂ : ChainAddress) (data : Trapping (Option Data)) : Prop :=
  ∃ bytes first second manager', data = .ok (some bytes) ∧
    MultiSend.decodeMultiSendArguments services.kit services.metadata.multiSendContractAddress
        services.metadata.multiSend services.metadata.multiSendContractAddress bytes =
      .ok (some [⟨.call, walletAddress.normalized, 0, first⟩,
        ⟨.call, walletAddress.normalized, 0, second⟩]) ∧
    manager.executeAll [first, second] = some manager' ∧
    (manager'.owners = (manager.owners.replace paper new₁).replace derived new₂ ∨
      manager'.owners = (manager.owners.replace paper new₂).replace derived new₁)

section

variable {services : Services} {derive : ExternallyOwnedAccount → ExternallyOwnedAccount}
  {store : Store} {wallet : Wallet} {walletAddress newAddress : Address}
  {account : ExternallyOwnedAccount} {paper derived : Owner} {manager : OwnerManager}

/-- The set that is enumerated. -/
theorem modifiable_eq {list : OwnerLinkedList} (h : list.Represents manager.owners) :
    list.contents.dedup.filter (fun owner => owner ∉ readOnlyOwners wallet) =
      (replaceableOwners wallet manager.owners).map Address.ofChain := by
  have hsentinel : OwnerManager.sentinel ∉ manager.owners :=
    fun hmem => (manager.valid _ hmem).2 rfl
  rw [h.contents hsentinel,
    (manager.nodup.map Address.ofChain_injective).dedup, List.filter_map]
  rfl

/-- The owners that are swapped are the first two that are enumerated. -/
theorem realTransactionData_eq
    (h : PhraseChange services derive store wallet walletAddress newAddress account paper derived
      manager) (enumeration : Enumeration) {first second : ChainAddress}
    {others : List Address}
    (horder : enumeration.array ((replaceableOwners wallet manager.owners).map Address.ofChain) =
      Address.ofChain first :: Address.ofChain second :: others) :
    ∃ swap₁ swap₂ manager',
      realTransactionData services enumeration derive newAddress store =
        .ok (some (batch services walletAddress [swap₁, swap₂])) ∧
      swap₁.length ≤ 100 ∧ swap₂.length ≤ 100 ∧
      manager.executeAll [swap₁, swap₂] = some manager' ∧
      manager'.owners = (manager.owners.replace first account.address.onChain).replace second
        (derive account).address.onChain := by
  have hmem : ∀ x, Address.ofChain x ∈ Address.ofChain first :: Address.ofChain second :: others →
      x ∈ manager.owners := by
    intro x hx
    rw [← horder, (enumeration.perm _).mem_iff,
      List.mem_map_of_injective Address.ofChain_injective] at hx
    exact List.mem_of_mem_filter hx
  have hfirst := hmem first (by simp)
  have hsecond := hmem second (by simp)
  have hne : second ≠ first := by
    have hnodup : (Address.ofChain first :: Address.ofChain second :: others).Nodup := by
      rw [← horder, (enumeration.perm _).nodup_iff]
      exact (manager.nodup.filter _).map Address.ofChain_injective
    intro heq
    simp [heq] at hnodup
  -- the copy of the owners and the calls planned on it
  obtain ⟨list, hlist, hrepresents⟩ := remoteOwnersList_of_owners (List.ne_nil_of_mem hfirst)
    h.owners_eq
  let pairs := [(Address.ofChain first, account.address),
    (Address.ofChain second, (derive account).address)]
  have hpresent : OwnerSwap.Present manager.owners pairs := by
    simp only [pairs, OwnerSwap.Present, Address.onChain_ofChain, and_true]
    exact ⟨hfirst, (manager.valid first hfirst).2,
      (Linked.mem_replace manager.nodup hfirst).mpr (.inr ⟨hsecond, hne⟩),
      (manager.valid second hsecond).2⟩
  have hwf : ∀ pair ∈ pairs, pair.1.WellFormed ∧ pair.2.WellFormed := by
    simp only [pairs, List.mem_cons, List.not_mem_nil, or_false, forall_eq_or_imp, forall_eq]
    exact ⟨⟨(Address.ofChain_spec first).1, h.new_wellFormed.1⟩,
      (Address.ofChain_spec second).1, h.new_wellFormed.2⟩
  obtain ⟨swaps, hcalls, hpairs, hlinked⟩ :=
    OwnerSwap.swapCalls_linked services.kit hrepresents hwf hpresent
  obtain ⟨swap₁, swap₂, rfl⟩ : ∃ swap₁ swap₂, swaps = [swap₁, swap₂] := by
    have hlength : swaps.length = 2 := by
      rw [← List.length_map (f := OwnerSwap.pair), hpairs]
      rfl
    exact List.length_eq_two.mp hlength
  simp only [List.map_cons, List.map_nil, pairs, OwnerSwap.pair, List.cons.injEq, Prod.mk.injEq,
    and_true] at hpairs
  obtain ⟨⟨hold₁, hnew₁⟩, hold₂, hnew₂⟩ := hpairs
  obtain ⟨manager', hexecute, howners⟩ := OwnerSwap.executeAll_linked h.selectors hlinked
    (by simpa [hnew₁, hnew₂] using h.new_ne) (by simpa [hnew₁, hnew₂] using h.new_add)
  refine ⟨_, _, manager', ?_, (OwnerSwap.length_data h.selectors swap₁).le,
    (OwnerSwap.length_data h.selectors swap₂).le, hexecute, ?_⟩
  · simp only [realTransactionData, requiredWallet, h.wallet_eq, h.address_eq, Trapping.unwrap_some,
      Trapping.ok_bind, Trapping.pure_eq_ok, hlist, modifiable_eq hrepresents, horder,
      List.length_cons, h.account_eq]
    simp only [transactionData, List.take_succ_cons, List.take_zero, List.length_cons,
      List.length_nil, List.zip_cons_cons, List.zip_nil_left]
    rw [if_pos (by omega), if_pos trivial]
    simp only [pairs] at hcalls
    rw [hcalls]
    rfl
  · rw [howners]
    simp [OwnerSwap.replaced, OwnerSwap.pair, hold₁, hold₂, hnew₁, hnew₂]

/-- With fewer than two owners to replace there is no data. -/
theorem realTransactionData_of_few
    (h : PhraseChange services derive store wallet walletAddress newAddress account paper derived
      manager) (enumeration : Enumeration)
    (hfew : (replaceableOwners wallet manager.owners).length < 2) :
    realTransactionData services enumeration derive newAddress store = .ok none := by
  obtain ⟨list, hlist, hrepresents⟩ := remoteOwnersList_of_owners (List.ne_nil_of_mem h.paper_mem)
    h.owners_eq
  have hlength : (enumeration.array
      ((replaceableOwners wallet manager.owners).map Address.ofChain)).length < 2 := by
    rwa [(enumeration.perm _).length_eq, List.length_map]
  simp only [realTransactionData, requiredWallet, h.wallet_eq, h.address_eq, Trapping.unwrap_some,
    Trapping.ok_bind, Trapping.pure_eq_ok, hlist, modifiable_eq hrepresents]
  rw [if_neg (Nat.not_le.mpr hlength)]

/-- What the batch does if two replaceable owners come first. -/
theorem replacesPhrase_iff
    (h : PhraseChange services derive store wallet walletAddress newAddress account paper derived
      manager) (enumeration : Enumeration) {first second : ChainAddress}
    {others : List Address}
    (horder : enumeration.array ((replaceableOwners wallet manager.owners).map Address.ofChain) =
      Address.ofChain first :: Address.ofChain second :: others) :
    ReplacesPhrase services manager walletAddress paper.address.onChain derived.address.onChain
        account.address.onChain (derive account).address.onChain
        (realTransactionData services enumeration derive newAddress store) ↔
      (manager.owners.replace first account.address.onChain).replace second
          (derive account).address.onChain =
        (manager.owners.replace paper.address.onChain account.address.onChain).replace
          derived.address.onChain (derive account).address.onChain ∨
      (manager.owners.replace first account.address.onChain).replace second
          (derive account).address.onChain =
        (manager.owners.replace paper.address.onChain (derive account).address.onChain).replace
          derived.address.onChain account.address.onChain := by
  obtain ⟨swap₁, swap₂, manager', hdata, hlength₁, hlength₂, hexecute, howners⟩ :=
    realTransactionData_eq h enumeration horder
  have hshort : ∀ call ∈ [swap₁, swap₂], call.length ≤ 100 := by
    simpa using ⟨hlength₁, hlength₂⟩
  have hdecode := RecoveryTransactionBuilder.decode_batch
    (Address.Respelled.refl services.metadata.multiSendContractAddress) h.address_wellFormed le_rfl
    hshort
  rw [← howners]
  constructor
  · intro hreplaces
    obtain ⟨bytes, call₁, call₂, manager'', hbytes, hcalls, hexecute', howners'⟩ := hreplaces
    rw [hdata] at hbytes
    cases hbytes
    rw [batch] at hcalls
    cases hdecode.symm.trans hcalls
    cases hexecute.symm.trans hexecute'
    exact howners'
  · intro howners'
    exact ⟨_, swap₁, swap₂, manager', hdata, hdecode, hexecute, howners'⟩

/-- An owner beside the phrase that comes first is swapped out. -/
theorem not_replaces_of_other
    (h : PhraseChange services derive store wallet walletAddress newAddress account paper derived
      manager) (htwo : 2 ≤ (replaceableOwners wallet manager.owners).length) {other : ChainAddress}
    (hother : other ∈ replaceableOwners wallet manager.owners)
    (hpaper : other ≠ paper.address.onChain) (hderived : other ≠ derived.address.onChain) :
    ¬ ReplacesPhrase services manager walletAddress paper.address.onChain derived.address.onChain
      account.address.onChain (derive account).address.onChain
      (realTransactionData services (.putFirst (Address.ofChain other)) derive newAddress store) := by
  have hnodup : (replaceableOwners wallet manager.owners).Nodup := manager.nodup.filter _
  have howner := List.mem_of_mem_filter hother
  -- a second owner follows in the enumeration
  obtain ⟨second, rest, herase⟩ : ∃ second rest,
      (replaceableOwners wallet manager.owners).erase other = second :: rest := by
    apply List.exists_cons_of_length_pos
    rw [List.length_erase_of_mem hother]
    omega
  have hsecond : second ∈ (replaceableOwners wallet manager.owners).erase other := by
    rw [herase]
    exact List.mem_cons_self
  obtain ⟨hne, hsecond⟩ := (hnodup.mem_erase_iff).mp hsecond
  have horder : (Enumeration.putFirst (Address.ofChain other)).array
      ((replaceableOwners wallet manager.owners).map Address.ofChain) =
        Address.ofChain other :: Address.ofChain second :: rest.map Address.ofChain := by
    have hmem := List.mem_map_of_mem (f := Address.ofChain) hother
    simp only [Enumeration.putFirst]
    rw [if_pos hmem, ← List.map_erase Address.ofChain_injective, herase,
      List.map_cons]
  rw [replacesPhrase_iff h _ horder]
  -- it stays in what was asked for and is gone from what the batch leaves
  have hgone : other ∉ (manager.owners.replace other account.address.onChain).replace second
      (derive account).address.onChain := by
    have hsecond' : second ∈ manager.owners.replace other account.address.onChain :=
      (Linked.mem_replace manager.nodup howner).mpr (.inr ⟨List.mem_of_mem_filter hsecond, hne⟩)
    rw [Linked.mem_replace (Linked.nodup_replace manager.nodup h.new_add.1.2.2) hsecond',
      Linked.mem_replace manager.nodup howner]
    rintro (heq | ⟨heq | ⟨-, hself⟩, -⟩)
    · exact h.new_add.2.2.2 (heq ▸ howner)
    · exact h.new_add.1.2.2 (heq ▸ howner)
    · exact hself rfl
  have hkept : ∀ new₁ new₂, other ∈ (manager.owners.replace paper.address.onChain new₁).replace
      derived.address.onChain new₂ := fun new₁ new₂ =>
    Linked.mem_replace_of_ne (Linked.mem_replace_of_ne howner hpaper) hderived
  rintro (heq | heq)
  · exact hgone (heq ▸ hkept _ _)
  · exact hgone (heq ▸ hkept _ _)

end

/-- In every order of enumeration the owners of the phrase are replaced, exactly when they are
the only owners of the contract that can be. -/
theorem realTransactionData_replaces_iff {services : Services}
    {derive : ExternallyOwnedAccount → ExternallyOwnedAccount} {store : Store} {wallet : Wallet}
    {walletAddress newAddress : Address} {account : ExternallyOwnedAccount} {paper derived : Owner}
    {manager : OwnerManager}
    (h : PhraseChange services derive store wallet walletAddress newAddress account paper derived
      manager) :
    (∀ enumeration, ReplacesPhrase services manager walletAddress paper.address.onChain
        derived.address.onChain account.address.onChain (derive account).address.onChain
        (realTransactionData services enumeration derive newAddress store)) ↔
      (replaceableOwners wallet manager.owners).Perm
        [paper.address.onChain, derived.address.onChain] := by
  constructor
  · intro hreplaces
    have htwo : 2 ≤ (replaceableOwners wallet manager.owners).length := by
      by_contra hfew
      obtain ⟨bytes, -, -, -, hbytes, -⟩ := hreplaces (.putFirst Address.zero)
      rw [realTransactionData_of_few h _ (Nat.not_le.mp hfew)] at hbytes
      cases hbytes
    have hsubset : replaceableOwners wallet manager.owners ⊆
        [paper.address.onChain, derived.address.onChain] := by
      intro other hother
      by_contra hnot
      obtain ⟨hpaper, hderived⟩ : other ≠ paper.address.onChain ∧
          other ≠ derived.address.onChain := by simpa using hnot
      exact not_replaces_of_other h htwo hother hpaper hderived (hreplaces _)
    exact (List.subperm_of_subset (manager.nodup.filter _) hsubset).perm_of_length_le htwo
  · intro hperm enumeration
    have horder : (enumeration.array
        ((replaceableOwners wallet manager.owners).map Address.ofChain)).Perm
          ([paper.address.onChain, derived.address.onChain].map Address.ofChain) :=
      (enumeration.perm _).trans (hperm.map _)
    have hne : paper.address.onChain ≠ derived.address.onChain := by
      have hnodup := hperm.nodup_iff.mp (manager.nodup.filter _)
      simpa using hnodup
    rcases List.perm_pair.mp horder with horder | horder
    · exact (replacesPhrase_iff h enumeration horder).mpr (.inl rfl)
    · refine (replacesPhrase_iff h enumeration horder).mpr (.inr ?_)
      exact Linked.replace_comm hne.symm (fun heq => h.new_add.1.2.2 (heq ▸ h.paper_mem))
        fun heq => h.new_add.2.2.2 (heq ▸ h.derived_mem)

/-! ## A phrase of one wallet -/

section Example

open RecoveryTransactionBuilder

/-- The first account of a new phrase. -/
def newAccount : ExternallyOwnedAccount :=
  ⟨⟨"0xf39Fd6e51aad88F6F4ce6aB8827279cffFb92266"⟩, EthereumKit.bytes 32
    0xac0974bec39a17e36ba4a6b4d238ff944bacb478cbed5efcae784d7bf4f2ff80⟩

/-- The account derived from it. -/
def newDerivedAccount : ExternallyOwnedAccount :=
  ⟨⟨"0x70997970C51812dc3A010C7d01b50e0d17dc79C8"⟩, EthereumKit.bytes 32
    0x59c6995e998f97a5a0044966f0945389dc9e86dae88c7a8412f4603b6b78690d⟩

/-- The derivation, as far as it is used. -/
def deriveNew (account : ExternallyOwnedAccount) : ExternallyOwnedAccount :=
  if account = newAccount then newDerivedAccount else account

/-- A wallet with an authenticator whose phrase is replaced. -/
def phraseWallet : Wallet :=
  { recoveryWallet deviceAddress paperAddress derivedAddress (some authenticatorAddress) with
    state := .readyToUse, confirmationCount := 2 }

/-- The wallet and the key of the new phrase. -/
def phraseStore : Store :=
  { Store.ofWallets ⟨[phraseWallet], List.nodup_singleton _⟩ Table.empty with
    portfolio := some ⟨["wallet"], some "wallet"⟩
    externallyOwnedAccounts := ⟨[newAccount], List.nodup_singleton _⟩ }

/-- The contract of the wallet. -/
def phraseServices (manager : OwnerManager) : Services :=
  answering recoveryKit recoveryMetadata safe manager

/-- The same contract with an owner that the wallet does not know. -/
def sharedManager : OwnerManager where
  owners := [lostAddress, authenticatorAddress, deviceAddress, paperAddress, derivedAddress]
  threshold := 2
  nodup := by decide
  valid := by
    simp [lostAddress, authenticatorAddress, deviceAddress, paperAddress, derivedAddress]

theorem newAccount_spec :
    newAccount.address.WellFormed ∧ newDerivedAccount.address.WellFormed ∧
      newAccount.address.onChain = 0xf39fd6e51aad88f6f4ce6ab8827279cfffb92266 ∧
      newDerivedAccount.address.onChain = 0x70997970c51812dc3a010c7d01b50e0d17dc79c8 := by
  decide +kernel

theorem phraseChange (manager : OwnerManager) (hsmall : manager.owners.length < 10)
    (hpaper : paperAddress ∈ manager.owners) (hderived : derivedAddress ∈ manager.owners)
    (hnew : 0xf39fd6e51aad88f6f4ce6ab8827279cfffb92266 ∉ manager.owners)
    (hnew' : 0x70997970c51812dc3a010c7d01b50e0d17dc79c8 ∉ manager.owners) :
    PhraseChange (phraseServices manager) deriveNew phraseStore phraseWallet safe
      newAccount.address newAccount ⟨.ofChain paperAddress, .paperWallet⟩
      ⟨.ofChain derivedAddress, .paperWalletDerived⟩ manager := by
  obtain ⟨hwf, hwf', honChain, honChain'⟩ := newAccount_spec
  have hderive : deriveNew newAccount = newDerivedAccount := if_pos rfl
  have hanswers : Answers (phraseServices manager) safe manager := answers_answering
  have howners := getOwners_eq hanswers
  rw [if_pos (by omega)] at howners
  refine ⟨recoveryKit_selectors, rfl, rfl, (Address.ofChain_spec _).1, howners, rfl, rfl, ?_, ?_, ?_,
    ?_, ?_, ?_⟩
  · rwa [Address.onChain_ofChain]
  · rwa [Address.onChain_ofChain]
  · exact Table.find_of_mem List.mem_cons_self
  · rw [hderive]
    exact ⟨hwf, hwf'⟩
  · rw [hderive, honChain, honChain']
    exact ⟨⟨by decide, by decide, hnew⟩, by decide, by decide, hnew'⟩
  · rw [hderive, honChain, honChain']
    decide

/-- Without further owners the phrase is replaced. -/
theorem realTransactionData_replaces_iff_four :
    ReplacesPhrase (phraseServices retriedManager) retriedManager safe paperAddress derivedAddress
      newAccount.address.onChain (deriveNew newAccount).address.onChain
      (realTransactionData (phraseServices retriedManager) (.putFirst (.ofChain derivedAddress))
        deriveNew newAccount.address phraseStore) := by
  have hchange := phraseChange retriedManager (by decide) (by decide) (by decide) (by decide)
    (by decide)
  have hperm : (replaceableOwners phraseWallet retriedManager.owners).Perm
      [paperAddress, derivedAddress] := by
    decide +kernel
  have hreplaces := (realTransactionData_replaces_iff hchange).mpr
    (by simpa only [Address.onChain_ofChain] using hperm)
  simpa only [Address.onChain_ofChain] using hreplaces (.putFirst (.ofChain derivedAddress))

/-- With an unknown owner there is an order in which that owner is swapped out. -/
theorem sharedManager_loses_owner :
    PhraseChange (phraseServices sharedManager) deriveNew phraseStore phraseWallet safe
      newAccount.address newAccount ⟨.ofChain paperAddress, .paperWallet⟩
      ⟨.ofChain derivedAddress, .paperWalletDerived⟩ sharedManager ∧
    ¬ ∀ enumeration, ReplacesPhrase (phraseServices sharedManager) sharedManager safe paperAddress
      derivedAddress newAccount.address.onChain (deriveNew newAccount).address.onChain
      (realTransactionData (phraseServices sharedManager) enumeration deriveNew newAccount.address
        phraseStore) := by
  have hchange := phraseChange sharedManager (by decide) (by decide) (by decide) (by decide)
    (by decide)
  have hother : lostAddress ∈ replaceableOwners phraseWallet sharedManager.owners ∧
      2 ≤ (replaceableOwners phraseWallet sharedManager.owners).length := by
    decide +kernel
  have hnot := not_replaces_of_other hchange hother.2 hother.1
    (by rw [Address.onChain_ofChain]; decide) (by rw [Address.onChain_ofChain]; decide)
  simp only [Address.onChain_ofChain] at hnot
  exact ⟨hchange, fun hreplaces => hnot (hreplaces _)⟩

end Example

end ReplaceRecoveryPhraseDomainService

end SafeWallet
