/-
# Wallets and their owners

A wallet is a record with a state, the owners the program believes the contract
has, and how many of them must confirm. Owners have roles; the program keeps at
most one owner of each known role by always removing the old one first.
-/

import SafeWallet.Ethereum.Address

namespace SafeWallet

/-- Identifiers are the texts of random UUIDs. -/
abbrev WalletID := String

/-- `OwnerRole`. -/
inductive OwnerRole
  | thisDevice
  | browserExtension
  | paperWallet
  | paperWalletDerived
  | keycard
  | unknown
  | personalSafe
  deriving DecidableEq, Repr

/-- `Owner`. -/
structure Owner where
  address : Address
  role : OwnerRole
  deriving DecidableEq, Repr

/-- `WalletState.State`. -/
inductive WalletState
  | draft
  | deploying
  | notEnoughFunds
  | creationStarted
  | finalizingDeployment
  | readyToUse
  | recoveryDraft
  | recoveryInProgress
  | recoveryPostProcessing
  | waitingForFirstDeposit
  deriving DecidableEq, Repr

namespace WalletState

/-- `isReadyToUse`. -/
def isReadyToUse (state : WalletState) : Bool := state = .readyToUse

/-- `isRecoveryInProgress`, which is also true while post-processing. -/
def isRecoveryInProgress (state : WalletState) : Bool :=
  state = .recoveryInProgress ∨ state = .recoveryPostProcessing

/-- `isFinalizingRecovery`. -/
def isFinalizingRecovery (state : WalletState) : Bool := state = .recoveryPostProcessing

end WalletState

/-- `WalletType`. -/
inductive WalletType
  | personal
  | multisig
  deriving DecidableEq, Repr

/-- `Wallet`, with the fields that the modelled operations read or write. -/
structure Wallet where
  id : WalletID
  state : WalletState
  owners : List Owner
  address : Option Address
  feePaymentTokenAddress : Option Address
  minimumDeploymentTransactionAmount : Option ℤ := none
  creationTransactionHash : Option String := none
  confirmationCount : ℕ
  masterCopyAddress : Option Address
  contractVersion : Option String := none
  type : WalletType := .personal
  deriving DecidableEq, Repr

namespace Wallet

/-- `owner(role:)`: the first owner of the role. -/
def owner (wallet : Wallet) (role : OwnerRole) : Option Owner :=
  wallet.owners.find? fun owner => owner.role = role

/-- `allOwners()`, sorted by the lower-case text of the address. -/
def allOwners (wallet : Wallet) : List Owner :=
  wallet.owners.mergeSort fun first second =>
    ¬ second.address.normalized.value < first.address.normalized.value

/-- `removeOwner(role:)`. -/
def removeOwner (wallet : Wallet) (role : OwnerRole) : Wallet :=
  { wallet with owners := wallet.owners.filter fun owner => owner.role ≠ role }

/-- `addOwner(_:)`: unknown owners accumulate, every other role is unique. -/
def addOwner (wallet : Wallet) (owner : Owner) : Wallet :=
  if owner.role = .unknown then { wallet with owners := wallet.owners ++ [owner] }
  else { wallet with owners := (wallet.removeOwner owner.role).owners ++ [owner] }

variable {wallet : Wallet}

theorem owner_mem {role : OwnerRole} {o : Owner} (h : wallet.owner role = some o) :
    o ∈ wallet.owners ∧ o.role = role :=
  ⟨List.mem_of_find?_eq_some h, by simpa using List.find?_some h⟩

@[simp]
theorem addOwner_id (new : Owner) : (wallet.addOwner new).id = wallet.id := by
  unfold addOwner
  split <;> rfl

/-- A new owner takes the place of the holder of its role, if the role is known. -/
theorem mem_addOwner {new o : Owner} : o ∈ (wallet.addOwner new).owners ↔
    (o ∈ wallet.owners ∧ (new.role = .unknown ∨ o.role ≠ new.role)) ∨ o = new := by
  unfold addOwner
  split
  · rename_i hunknown
    simp [hunknown]
  · rename_i hknown
    simp [removeOwner, hknown]

@[simp]
theorem mem_allOwners {o : Owner} : o ∈ wallet.allOwners ↔ o ∈ wallet.owners := by
  simp [allOwners]

end Wallet

end SafeWallet
