/-
# Write permission

The user can act for a wallet if this device holds the key of one of its owners. A Safe
can own another Safe, so the key may also belong to an owner of an owner, over any
number of wallets. Owners come from the chain: a Safe may own itself, and two Safes may
own each other.
-/

import SafeWallet.Base.Search
import SafeWallet.DomainRegistry

namespace SafeWallet

namespace Wallet

variable (store : Store) (wallet : Wallet)

/-- `hasThisDeviceKeyAsOwner`. -/
def hasThisDeviceKeyAsOwner : Bool :=
  match wallet.owner .thisDevice with
  | some device =>
    if (store.externallyOwnedAccounts.find device.address).isSome then
      decide (wallet.confirmationCount > 0)
    else false
  | none => false

/-- `ownerWallets`. -/
def ownerWallets : List Wallet :=
  wallet.allOwners.filterMap fun owner => store.findWallet owner.address

/-- `hasAncestorWalletWithThisDeviceKeyAsOwner`, if its loop ends within the rounds. -/
def hasAncestorWalletWithThisDeviceKeyAsOwner (rounds : ℕ) : Option Bool :=
  Search.search Wallet.id (ownerWallets store) (hasThisDeviceKeyAsOwner store) rounds []
    (wallet.ownerWallets store)

/-- `hasWritePermission`, if its loop ends within the rounds. -/
def hasWritePermission (rounds : ℕ) : Option Bool :=
  if wallet.hasThisDeviceKeyAsOwner store then some true
  else wallet.hasAncestorWalletWithThisDeviceKeyAsOwner store rounds

/-! ## The owners of the owners -/

/-- A stored wallet is found at the address of an owner. -/
def OwnedBy (other : Wallet) : Prop :=
  ∃ owner ∈ wallet.owners, store.findWallet owner.address = some other

/-- The wallet itself, or a wallet found by following owners. -/
def Ancestor (other : Wallet) : Prop := Relation.ReflTransGen (OwnedBy store) wallet other

/-- The owner is this device and its key is stored. -/
def IsDeviceKey (owner : Owner) : Prop :=
  owner.role = .thisDevice ∧ (store.externallyOwnedAccounts.find owner.address).isSome = true

/-- The key of the wallet's owner for this device is stored, and confirmations count. -/
def SignsHere : Prop :=
  (∃ owner, wallet.owner .thisDevice = some owner ∧ IsDeviceKey store owner) ∧
    0 < wallet.confirmationCount

/-- Some owner is this device with a stored key, and confirmations count. -/
def HasDeviceKey : Prop :=
  (∃ owner ∈ wallet.owners, IsDeviceKey store owner) ∧ 0 < wallet.confirmationCount

/-- `addOwner` keeps at most one owner for this device. -/
def OneDevice : Prop :=
  ∀ first ∈ wallet.owners, ∀ second ∈ wallet.owners,
    first.role = .thisDevice → second.role = .thisDevice → first = second

variable {store wallet} {other : Wallet}

theorem OneDevice.addOwner (h : wallet.OneDevice) (owner : Owner) :
    (wallet.addOwner owner).OneDevice := by
  intro first hfirst second hsecond hrole hrole'
  rw [mem_addOwner] at hfirst hsecond
  rcases hfirst with ⟨hfirst, hnew⟩ | rfl
  · rcases hsecond with ⟨hsecond, -⟩ | rfl
    · exact h first hfirst second hsecond hrole hrole'
    · rcases hnew with hunknown | hne
      · rw [hrole'] at hunknown
        cases hunknown
      · exact absurd (hrole.trans hrole'.symm) hne
  · rcases hsecond with ⟨hsecond, hnew⟩ | rfl
    · rcases hnew with hunknown | hne
      · rw [hrole] at hunknown
        cases hunknown
      · exact absurd (hrole'.trans hrole.symm) hne
    · rfl

/-- With one owner for this device, it is the one that is looked up. -/
theorem signsHere_iff_of_oneDevice (h : wallet.OneDevice) :
    SignsHere store wallet ↔ HasDeviceKey store wallet := by
  refine and_congr_left fun _ => ?_
  constructor
  · intro hsigns
    obtain ⟨owner, howner, hkey⟩ := hsigns
    exact ⟨owner, (owner_mem howner).1, hkey⟩
  · intro hkey
    obtain ⟨owner, howner, hrole, hstored⟩ := hkey
    have hsome : (wallet.owner .thisDevice).isSome := by
      rw [Wallet.owner, List.find?_isSome]
      exact ⟨owner, howner, by simpa using hrole⟩
    obtain ⟨device, hdevice⟩ := Option.isSome_iff_exists.mp hsome
    obtain ⟨hmem, hdeviceRole⟩ := owner_mem hdevice
    have hsame := h device hmem owner howner hdeviceRole hrole
    exact ⟨device, hdevice, hsame ▸ ⟨hrole, hstored⟩⟩

theorem hasThisDeviceKeyAsOwner_iff :
    wallet.hasThisDeviceKeyAsOwner store = true ↔ SignsHere store wallet := by
  rw [hasThisDeviceKeyAsOwner, SignsHere]
  cases hdevice : wallet.owner .thisDevice with
  | none => simp
  | some device =>
      have hrole := (owner_mem hdevice).2
      by_cases hstored : (store.externallyOwnedAccounts.find device.address).isSome = true
      · simp [hstored, IsDeviceKey, hrole]
      · simp [hstored, IsDeviceKey]

theorem mem_ownerWallets : other ∈ wallet.ownerWallets store ↔ OwnedBy store wallet other := by
  simp [ownerWallets, OwnedBy]

theorem ancestor_eq_reaches : Ancestor store = Search.Reaches (ownerWallets store) := by
  funext wallet other
  simp only [Ancestor, Search.Reaches, mem_ownerWallets]

/-- The search over the owners ends with the answer whether one of them leads to a key. -/
theorem hasAncestorWallet_spec (store : Store) (wallet : Wallet) :
    ∃ bound found, (found = true ↔ ∃ owner ∈ wallet.ownerWallets store,
        Search.Leads (ownerWallets store) (hasThisDeviceKeyAsOwner store) owner) ∧
      ∀ rounds ≥ bound,
        wallet.hasAncestorWalletWithThisDeviceKeyAsOwner store rounds = some found := by
  have hstored : ∀ wallet : Wallet, ∀ other ∈ wallet.ownerWallets store,
      other ∈ store.wallets.rows := by
    intro wallet other hother
    obtain ⟨owner, -, hfind⟩ := mem_ownerWallets.mp hother
    exact List.mem_of_find?_eq_some hfind
  have hkeys : ∀ first ∈ store.wallets.rows, ∀ second ∈ store.wallets.rows,
      first.id = second.id → first = second := by
    intro first hfirst second hsecond hid
    have hfind := Table.find_of_mem hfirst
    rw [hid, Table.find_of_mem hsecond] at hfind
    exact (Option.some.inj hfind).symm
  have hstart : Search.Explored Wallet.id (ownerWallets store) (hasThisDeviceKeyAsOwner store)
      store.wallets.rows [] (wallet.ownerWallets store) :=
    ⟨hstored wallet, fun _ _ hseen => absurd hseen List.not_mem_nil⟩
  exact hstart.search_spec (fun first _ => hstored first) hkeys

/-- The question ends for every set of stored wallets, and the answer is whether the wallet or
one reached by following its owners has a key on this device. -/
theorem hasWritePermission_reachable (store : Store) (wallet : Wallet) :
    ∃ bound permitted,
      (∀ rounds ≥ bound, wallet.hasWritePermission store rounds = some permitted) ∧
      (permitted = true ↔ ∃ other, Ancestor store wallet other ∧ SignsHere store other) ∧
      ((wallet.OneDevice ∧ ∀ stored ∈ store.wallets.rows, stored.OneDevice) →
        (permitted = true ↔ ∃ other, Ancestor store wallet other ∧ HasDeviceKey store other)) := by
  obtain ⟨bound, found, hfound, hsearch⟩ := hasAncestorWallet_spec store wallet
  refine ⟨bound, wallet.hasThisDeviceKeyAsOwner store || found, ?_, ?_⟩
  · intro rounds hrounds
    rw [hasWritePermission]
    cases wallet.hasThisDeviceKeyAsOwner store with
    | true => rfl
    | false => exact hsearch rounds hrounds
  · have hleads : (wallet.hasThisDeviceKeyAsOwner store || found) = true ↔
        ∃ other, Ancestor store wallet other ∧ SignsHere store other := by
      have hgoal : (∃ other, Ancestor store wallet other ∧ SignsHere store other) ↔
          Search.Leads (ownerWallets store) (hasThisDeviceKeyAsOwner store) wallet := by
        simp only [ancestor_eq_reaches, Search.Leads, hasThisDeviceKeyAsOwner_iff]
      rw [hgoal]
      cases hself : wallet.hasThisDeviceKeyAsOwner store with
      | true => exact iff_of_true rfl ⟨wallet, .refl, hself⟩
      | false => rw [Search.leads_iff_next hself, Bool.false_or, hfound]
    refine ⟨hleads, fun hone => ?_⟩
    rw [hleads]
    refine exists_congr fun other => and_congr_right fun hancestor => ?_
    apply signsHere_iff_of_oneDevice
    rcases Relation.ReflTransGen.cases_tail hancestor with rfl | ⟨_, -, owner, -, hfind⟩
    · exact hone.1
    · exact hone.2 other (List.mem_of_find?_eq_some hfind)

/-- A Safe that another one owns, without an owner on this device. -/
def ownedSafe : Wallet where
  id := "A"
  state := .readyToUse
  owners := [⟨⟨"0xb"⟩, .personalSafe⟩]
  address := some ⟨"0xa"⟩
  feePaymentTokenAddress := none
  confirmationCount := 1
  masterCopyAddress := none

/-- Its owner: a Safe of this device that the other one owns in turn. -/
def deviceSafe : Wallet where
  id := "B"
  state := .readyToUse
  owners := [⟨⟨"0xa"⟩, .unknown⟩, ⟨⟨"0xc"⟩, .thisDevice⟩]
  address := some ⟨"0xb"⟩
  feePaymentTokenAddress := none
  confirmationCount := 1
  masterCopyAddress := none

/-- The two Safes and the key of this device. -/
def circularStore : Store :=
  { Store.ofWallets ⟨[ownedSafe, deviceSafe], by decide⟩ Table.empty with
    externallyOwnedAccounts := ⟨[⟨⟨"0xc"⟩, []⟩], by decide⟩ }

theorem hasWritePermission_reachable_circular :
    (ownedSafe.OneDevice ∧ ∀ stored ∈ circularStore.wallets.rows, stored.OneDevice) ∧
      ∃ bound, ∀ rounds ≥ bound, ownedSafe.hasWritePermission circularStore rounds = some true := by
  have hone : ownedSafe.OneDevice ∧ ∀ stored ∈ circularStore.wallets.rows, stored.OneDevice := by
    unfold OneDevice
    decide
  obtain ⟨bound, permitted, hanswer, -, hpermitted⟩ :=
    hasWritePermission_reachable circularStore ownedSafe
  have hkey : HasDeviceKey circularStore deviceSafe :=
    ⟨⟨⟨⟨"0xc"⟩, .thisDevice⟩, by decide, rfl, rfl⟩, by decide⟩
  have howner : OwnedBy circularStore ownedSafe deviceSafe :=
    ⟨⟨⟨"0xb"⟩, .personalSafe⟩, by decide, rfl⟩
  have htrue := (hpermitted hone).mpr ⟨deviceSafe, .single howner, hkey⟩
  exact ⟨hone, bound, htrue ▸ hanswer⟩

end Wallet

end SafeWallet
