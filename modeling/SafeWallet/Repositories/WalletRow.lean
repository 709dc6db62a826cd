/-
# Rows of the wallet repository

A wallet is stored in eleven columns, its owners as one text. When it is read, the owners
are added one after the other to a new wallet, and adding one removes another with its
role. Nobody is lost as long as no role but `unknown` occurs twice, which every operation on
the owners keeps.
-/

import SafeWallet.Base.Table
import SafeWallet.Repositories.TokenPersistence

namespace SafeWallet

/-! ## Raw values -/

/-- `OwnerRole.rawValue`. -/
def OwnerRole.rawValue : OwnerRole → List Char
  | .thisDevice => "thisDevice".toList
  | .browserExtension => "browserExtension".toList
  | .paperWallet => "paperWallet".toList
  | .paperWalletDerived => "paperWalletDerived".toList
  | .keycard => "keycard".toList
  | .unknown => "unknown".toList
  | .personalSafe => "personalSafe".toList

/-- `OwnerRole(rawValue:)`. -/
def OwnerRole.ofRawValue (rawValue : List Char) : Option OwnerRole :=
  [.thisDevice, .browserExtension, .paperWallet, .paperWalletDerived, .keycard, .unknown,
    .personalSafe].find? fun role => role.rawValue = rawValue

/-- `WalletState.State.rawValue`. -/
def WalletState.rawValue : WalletState → ℕ
  | .draft => 0
  | .deploying => 1
  | .notEnoughFunds => 2
  | .creationStarted => 3
  | .finalizingDeployment => 4
  | .readyToUse => 5
  | .recoveryDraft => 6
  | .recoveryInProgress => 7
  | .recoveryPostProcessing => 8
  | .waitingForFirstDeposit => 9

/-- `WalletState.State(rawValue:)`. -/
def WalletState.ofRawValue (rawValue : ℕ) : Option WalletState :=
  [.draft, .deploying, .notEnoughFunds, .creationStarted, .finalizingDeployment, .readyToUse,
    .recoveryDraft, .recoveryInProgress, .recoveryPostProcessing,
    .waitingForFirstDeposit].find? fun state => state.rawValue = rawValue

/-- `WalletType.rawValue`. -/
def WalletType.rawValue : WalletType → ℕ
  | .personal => 0
  | .multisig => 1

/-- `WalletType(rawValue:)`. -/
def WalletType.ofRawValue (rawValue : ℕ) : Option WalletType :=
  [.personal, .multisig].find? fun type => type.rawValue = rawValue

@[simp]
theorem OwnerRole.ofRawValue_rawValue (role : OwnerRole) : ofRawValue role.rawValue = some role := by
  cases role <;> decide

@[simp]
theorem WalletState.ofRawValue_rawValue (state : WalletState) :
    ofRawValue state.rawValue = some state := by
  cases state <;> rfl

@[simp]
theorem WalletType.ofRawValue_rawValue (type : WalletType) :
    ofRawValue type.rawValue = some type := by
  cases type <;> rfl

theorem OwnerRole.plain_rawValue (role : OwnerRole) : Plain role.rawValue := by
  have hall : (role.rawValue.all fun c => c.isAlphanum || c == '-') = true := by
    cases role <;> decide
  intro c hc
  simpa using List.all_eq_true.mp hall c hc

/-! ## Writing and reading -/

/-- The columns of `tbl_wallets`. -/
structure WalletRow where
  id : List Char
  state : ℕ
  owners : List Char
  address : Option (List Char)
  minimumDeploymentTxAmount : Option (List Char)
  creationTxHash : Option (List Char)
  confirmationCount : ℕ
  feePaymentTokenAddress : Option (List Char)
  masterCopyAddress : Option (List Char)
  contractVersion : Option (List Char)
  type : ℕ
  deriving DecidableEq, Repr

namespace OwnerList

/-- An owner as it is stored. -/
def serializedOwner (owner : Owner) : List Char :=
  Separated.joined [':'] [owner.address.value.toList, owner.role.rawValue]

/-- `serializedValue`. -/
def serialized (owners : List Owner) : List Char :=
  Separated.joined [','] (owners.map serializedOwner)

variable (kit : TextKit)

/-- A stored owner. -/
def deserializedOwner (keyValue : List Char) : Trapping (Option Owner) :=
  match Separated.components kit.combining [':'] keyValue with
  | [address, role] =>
    match OwnerRole.ofRawValue role with
    | none => return none
    | some role => do
      let address ← Address.make (String.ofList address)
      return some ⟨address, role⟩
  | _ => return none

/-- `OwnerList(serializedValue:)`. -/
def deserialized (serializedValue : List Char) : Trapping (List Owner) := do
  let owners ← (Separated.components kit.combining [','] serializedValue).mapM
    (deserializedOwner kit)
  return owners.reduceOption

end OwnerList

namespace DBWalletRepository

open DBTransactionRepository

/-- `insertionBindings(_:)`. -/
def insertionBindings (wallet : Wallet) : WalletRow where
  id := wallet.id.toList
  state := wallet.state.rawValue
  owners := OwnerList.serialized wallet.owners
  address := wallet.address.map fun a => a.value.toList
  minimumDeploymentTxAmount := wallet.minimumDeploymentTransactionAmount.map Decimal.text
  creationTxHash := wallet.creationTransactionHash.map String.toList
  confirmationCount := wallet.confirmationCount
  feePaymentTokenAddress := wallet.feePaymentTokenAddress.map fun a => a.value.toList
  masterCopyAddress := wallet.masterCopyAddress.map fun a => a.value.toList
  contractVersion := wallet.contractVersion.map String.toList
  type := wallet.type.rawValue

/-- A column with a text. -/
def nextText (column : Option (List Char)) : Option String :=
  column.map fun column => String.ofList (Column.nextString column)

variable (kit : TextKit)

/-- `objectFromResultSet(_:)`, with the initialiser of `Wallet`: the owners are added to a wallet
that has none. -/
def objectFromResultSet (row : WalletRow) : Trapping (Option Wallet) :=
  match WalletState.ofRawValue row.state, WalletType.ofRawValue row.type with
  | some state, some type => do
    let owners ← OwnerList.deserialized kit (Column.nextString row.owners)
    let address ← nextAddress row.address
    let feePaymentTokenAddress ← nextAddress row.feePaymentTokenAddress
    let masterCopyAddress ← nextAddress row.masterCopyAddress
    let wallet : Wallet := {
      id := String.ofList (Column.nextString row.id)
      state := .draft
      owners := []
      address := address
      feePaymentTokenAddress := feePaymentTokenAddress
      minimumDeploymentTransactionAmount := nextInteger kit row.minimumDeploymentTxAmount
      creationTransactionHash := nextText row.creationTxHash
      confirmationCount := row.confirmationCount
      masterCopyAddress := masterCopyAddress
      contractVersion := nextText row.contractVersion
      type := type }
    return some { owners.foldl Wallet.addOwner wallet with state := state }
  | _, _ => return none

/-- `save(_:)`. -/
def save (table : Table WalletRow.id) (wallet : Wallet) : Table WalletRow.id :=
  table.save (insertionBindings wallet)

/-- `find(id:)`. -/
def find (table : Table WalletRow.id) (id : WalletID) : Trapping (Option Wallet) :=
  match table.find id.toList with
  | none => return none
  | some row => objectFromResultSet kit row

end DBWalletRepository

/-! ## Reading what was written -/

namespace OwnerList

variable {kit : TextKit} {owner : Owner} {owners : List Owner}

theorem deserializedOwner_serialized (h : owner.address.WellFormed) :
    deserializedOwner kit (serializedOwner owner) = .ok (some owner) := by
  have hcomponents := Paired.components kit (c := ':') (by decide) rfl h.plain
    owner.role.plain_rawValue
  simp only [deserializedOwner, serializedOwner, hcomponents, OwnerRole.ofRawValue_rawValue,
    String.ofList_toList, h.make, Trapping.ok_bind, Trapping.pure_eq_ok]

theorem mapM_deserializedOwner (h : ∀ owner ∈ owners, owner.address.WellFormed) :
    (owners.map serializedOwner).mapM (deserializedOwner kit) = .ok (owners.map some) := by
  induction owners with
  | nil => rfl
  | cons owner rest ih =>
      have hrest := ih fun other hother => h other (List.mem_cons_of_mem _ hother)
      simp only [List.map_cons, List.mapM_cons,
        deserializedOwner_serialized (h owner List.mem_cons_self), Trapping.ok_bind, hrest,
        Trapping.pure_eq_ok]

/-- Owners are read back in their order. -/
theorem deserialized_serialized (h : ∀ owner ∈ owners, owner.address.WellFormed) :
    deserialized kit (Column.nextString (serialized owners)) = .ok owners := by
  have hpaired : ∀ text ∈ owners.map serializedOwner, Paired ':' text := by
    intro text htext
    obtain ⟨owner, howner, rfl⟩ := List.mem_map.mp htext
    exact ⟨_, _, (h owner howner).plain, owner.role.plain_rawValue, rfl⟩
  have hnul : '\x00' ∉ serialized owners :=
    Paired.not_mem_list (by decide) (by decide) rfl hpaired
  rw [DBTransactionRepository.nextString_eq_self.mpr hnul]
  by_cases hne : owners = []
  · subst hne
    rfl
  · have hcomponents : Separated.components kit.combining [','] (serialized owners) =
        owners.map serializedOwner :=
      Paired.components_list kit (by decide) (by decide) rfl (by decide) hpaired (by simpa using hne)
    simp only [deserialized, hcomponents, mapM_deserializedOwner h, Trapping.ok_bind,
      Trapping.pure_eq_ok, List.reduceOption, List.filterMap_map, Function.id_comp,
      List.filterMap_some]

end OwnerList

namespace Wallet

/-- No role but `unknown` occurs twice. -/
def KnownOnce (owners : List Owner) : Prop :=
  ((owners.map Owner.role).filter (· ≠ .unknown)).Nodup

variable {wallet : Wallet} {owner : Owner} {owners : List Owner}

theorem knownOnce_nil : KnownOnce [] := List.nodup_nil

theorem KnownOnce.sublist {owners' : List Owner} (h : KnownOnce owners)
    (hsub : List.Sublist owners' owners) : KnownOnce owners' :=
  List.Nodup.sublist ((hsub.map Owner.role).filter _) h

/-- An owner can be put behind others if nobody has its role, or if it has none. -/
theorem knownOnce_concat_iff : KnownOnce (owners ++ [owner]) ↔
    KnownOnce owners ∧ (owner.role ≠ .unknown → ∀ other ∈ owners, other.role ≠ owner.role) := by
  rw [KnownOnce, List.map_append, List.filter_append, List.nodup_append]
  by_cases hunknown : owner.role = .unknown
  · simp [hunknown, KnownOnce]
  · have hsingle : ([owner].map Owner.role).filter (· ≠ .unknown) = [owner.role] := by
      simp [hunknown]
    rw [hsingle]
    refine ⟨fun ⟨hnodup, _, hdisjoint⟩ => ⟨hnodup, fun _ other hother heq => ?_⟩,
      fun ⟨hnodup, hnew⟩ => ⟨hnodup, List.nodup_singleton _, fun role hrole role' hrole' heq => ?_⟩⟩
    · have hmem : other.role ∈ (owners.map Owner.role).filter (· ≠ .unknown) := by
        simpa [heq, hunknown] using ⟨other, hother, heq⟩
      exact hdisjoint _ hmem _ List.mem_cons_self heq
    · obtain ⟨other, hother, rfl⟩ := List.mem_map.mp (List.mem_filter.mp hrole).1
      rw [List.mem_singleton] at hrole'
      exact hnew hunknown other hother (heq.trans hrole')

/-- Adding an owner removes the one with its role first. -/
theorem KnownOnce.addOwner (h : KnownOnce wallet.owners) :
    KnownOnce (wallet.addOwner owner).owners := by
  unfold Wallet.addOwner
  split
  · rename_i hunknown
    exact knownOnce_concat_iff.mpr ⟨h, fun hknown => absurd hunknown hknown⟩
  · refine knownOnce_concat_iff.mpr ⟨h.sublist List.filter_sublist, fun _ other hother => ?_⟩
    simpa using (List.mem_filter.mp hother).2

/-- Nobody is lost when owners with different roles are added to none. -/
theorem foldl_addOwner (h : KnownOnce (wallet.owners ++ owners)) :
    owners.foldl Wallet.addOwner wallet = { wallet with owners := wallet.owners ++ owners } := by
  induction owners generalizing wallet with
  | nil => simp
  | cons owner rest ih =>
      have hsplit : wallet.owners ++ owner :: rest = (wallet.owners ++ [owner]) ++ rest := by simp
      rw [hsplit] at h ⊢
      have hshort : KnownOnce (wallet.owners ++ [owner]) :=
        h.sublist (List.sublist_append_left _ rest)
      have hfirst := (knownOnce_concat_iff.mp hshort).2
      have hadd : wallet.addOwner owner = { wallet with owners := wallet.owners ++ [owner] } := by
        unfold Wallet.addOwner
        split
        · rfl
        · rename_i hknown
          have hkept : (wallet.removeOwner owner.role).owners = wallet.owners := by
            rw [removeOwner, List.filter_eq_self]
            exact fun other hother => decide_eq_true (hfirst hknown other hother)
          rw [hkept]
      rw [List.foldl_cons, hadd]
      exact ih h

/-! ## Operations -/

/-- `Wallet(id:owner:)`. -/
def new (id : WalletID) (owner : Address) : Wallet where
  id := id
  state := .draft
  owners := [⟨owner, .thisDevice⟩]
  address := none
  feePaymentTokenAddress := none
  confirmationCount := 1
  masterCopyAddress := none

/-- `Wallet(id:state:owners:…)`, which adds the owners one by one. -/
def ofOwners (wallet : Wallet) : Wallet :=
  { wallet.owners.foldl Wallet.addOwner { wallet with state := .draft, owners := [] } with
    state := wallet.state }

/-- The public operations of a wallet. Its state is changed by `proceed()`, `cancel()` and
`resume()`, which may set the confirmation count before. -/
inductive Operation
  | addOwner (owner : Owner)
  | removeRole (role : OwnerRole)
  | removeOwner (owner : Owner)
  | prepareForRecovery
  | prepareForCreation
  | enter (state : WalletState)
  | assignCreationTransaction (hash : Option String)
  | changeAddress (address : Option Address)
  | changeConfirmationCount (newValue : ℕ)
  | changeFeePaymentToken (newValue : Address)
  | updateMinimumTransactionAmount (newValue : ℤ)
  | changeMasterCopy (newValue : Option Address)
  | changeContractVersion (newValue : Option String)
  deriving DecidableEq, Repr

/-- The effect of an operation. -/
def perform (wallet : Wallet) : Operation → Wallet
  | .addOwner owner => wallet.addOwner owner
  | .removeRole role => wallet.removeOwner role
  | .removeOwner owner => { wallet with owners := wallet.owners.erase owner }
  | .prepareForRecovery => { wallet with
      state := .recoveryDraft
      owners := wallet.owners.filter fun owner => owner.role = .thisDevice
      confirmationCount := 1 }
  | .prepareForCreation =>
    if wallet.state = .draft then wallet
    else { wallet with
      state := .draft
      owners := wallet.owners.filter fun owner => owner.role = .thisDevice
      confirmationCount := 1 }
  | .enter state => { wallet with state := state }
  | .assignCreationTransaction hash => { wallet with creationTransactionHash := hash }
  | .changeAddress address => { wallet with address := address }
  | .changeConfirmationCount newValue => { wallet with confirmationCount := newValue }
  | .changeFeePaymentToken newValue => { wallet with feePaymentTokenAddress := some newValue }
  | .updateMinimumTransactionAmount newValue =>
    { wallet with minimumDeploymentTransactionAmount := some newValue }
  | .changeMasterCopy newValue => { wallet with masterCopyAddress := newValue }
  | .changeContractVersion newValue => { wallet with contractVersion := newValue }

/-- The addresses of an operation are addresses. -/
def Operation.WellFormed : Operation → Prop
  | .addOwner owner => owner.address.WellFormed
  | .changeAddress address => ∀ a ∈ address, a.WellFormed
  | .changeFeePaymentToken newValue => newValue.WellFormed
  | .changeMasterCopy newValue => ∀ a ∈ newValue, a.WellFormed
  | _ => True

/-- All addresses of a wallet are addresses. -/
structure WellFormedAddresses (wallet : Wallet) : Prop where
  owners : ∀ owner ∈ wallet.owners, owner.address.WellFormed
  address : ∀ a ∈ wallet.address, a.WellFormed
  feePaymentTokenAddress : ∀ a ∈ wallet.feePaymentTokenAddress, a.WellFormed
  masterCopyAddress : ∀ a ∈ wallet.masterCopyAddress, a.WellFormed

/-- Wallets that the initialisers and the operations make. -/
inductive Reachable : Wallet → Prop
  | new (id : WalletID) (owner : Address) (h : owner.WellFormed) : Reachable (new id owner)
  | ofOwners (wallet : Wallet) (h : wallet.WellFormedAddresses) : Reachable wallet.ofOwners
  | perform (wallet : Wallet) (operation : Operation) (hwallet : Reachable wallet)
    (h : operation.WellFormed) : Reachable (wallet.perform operation)

/-- What every operation keeps. -/
structure Kept (wallet : Wallet) : Prop where
  addresses : wallet.WellFormedAddresses
  knownOnce : KnownOnce wallet.owners

/-- With fewer owners the wallet is kept. -/
theorem Kept.withOwners {owners' : List Owner} (h : Kept wallet)
    (hsub : List.Sublist owners' wallet.owners) : Kept { wallet with owners := owners' } where
  addresses := { h.addresses with
    owners := fun owner howner => h.addresses.owners owner (hsub.subset howner) }
  knownOnce := h.knownOnce.sublist hsub

theorem Kept.addOwner (h : Kept wallet) (howner : owner.address.WellFormed) :
    Kept (wallet.addOwner owner) := by
  have howners : ∀ other ∈ (wallet.addOwner owner).owners, other.address.WellFormed := by
    intro other hother
    rcases mem_addOwner.mp hother with ⟨hold, -⟩ | rfl
    · exact h.addresses.owners other hold
    · exact howner
  have hsame : wallet.addOwner owner =
      { wallet with owners := (wallet.addOwner owner).owners } := by
    unfold Wallet.addOwner
    split <;> rfl
  refine ⟨?_, h.knownOnce.addOwner⟩
  rw [hsame]
  exact { h.addresses with owners := howners }

/-- One operation keeps the wallet. -/
theorem Kept.perform {operation : Operation} (h : Kept wallet) (hoperation : operation.WellFormed) :
    Kept (wallet.perform operation) := by
  have hdevice : Kept { wallet with
      owners := wallet.owners.filter fun owner => owner.role = .thisDevice } :=
    h.withOwners List.filter_sublist
  cases operation with
  | addOwner owner => exact h.addOwner hoperation
  | removeRole role => exact h.withOwners List.filter_sublist
  | removeOwner owner => exact h.withOwners List.erase_sublist
  | prepareForRecovery =>
      exact ⟨{ hdevice.addresses with }, hdevice.knownOnce⟩
  | prepareForCreation =>
      by_cases hdraft : wallet.state = .draft
      · simpa only [Wallet.perform, if_pos hdraft] using h
      · simp only [Wallet.perform, if_neg hdraft]
        exact ⟨{ hdevice.addresses with }, hdevice.knownOnce⟩
  | enter state => exact ⟨{ h.addresses with }, h.knownOnce⟩
  | assignCreationTransaction hash => exact ⟨{ h.addresses with }, h.knownOnce⟩
  | changeAddress address => exact ⟨{ h.addresses with address := hoperation }, h.knownOnce⟩
  | changeConfirmationCount newValue => exact ⟨{ h.addresses with }, h.knownOnce⟩
  | changeFeePaymentToken newValue =>
      refine ⟨{ h.addresses with feePaymentTokenAddress := ?_ }, h.knownOnce⟩
      rintro _ ⟨⟩
      exact hoperation
  | updateMinimumTransactionAmount newValue => exact ⟨{ h.addresses with }, h.knownOnce⟩
  | changeMasterCopy newValue =>
      exact ⟨{ h.addresses with masterCopyAddress := hoperation }, h.knownOnce⟩
  | changeContractVersion newValue => exact ⟨{ h.addresses with }, h.knownOnce⟩

theorem kept_ofOwners (h : wallet.WellFormedAddresses) : Kept wallet.ofOwners := by
  have hfold : ∀ (owners : List Owner) (start : Wallet), Kept start →
      (∀ owner ∈ owners, owner.address.WellFormed) →
      Kept (owners.foldl Wallet.addOwner start) := by
    intro owners
    induction owners with
    | nil => exact fun _ hstart _ => hstart
    | cons owner rest ih =>
        exact fun start hstart howners => ih _ (hstart.addOwner (howners owner List.mem_cons_self))
          fun other hother => howners other (List.mem_cons_of_mem _ hother)
  have hempty : Kept { wallet with state := .draft, owners := [] } :=
    ⟨{ h with owners := fun _ hmem => absurd hmem List.not_mem_nil }, knownOnce_nil⟩
  have hkept := hfold wallet.owners _ hempty h.owners
  exact ⟨{ hkept.addresses with }, hkept.knownOnce⟩

/-- Every wallet that can be made is kept. -/
theorem Reachable.kept (h : Reachable wallet) : Kept wallet := by
  induction h with
  | new id owner howner =>
      refine ⟨⟨?_, ?_, ?_, ?_⟩, List.nodup_singleton _⟩
      · intro other hother
        rw [List.mem_singleton.mp hother]
        exact howner
      · rintro _ ⟨⟩
      · rintro _ ⟨⟩
      · rintro _ ⟨⟩
  | ofOwners wallet hwallet => exact kept_ofOwners hwallet
  | perform wallet operation _ hoperation ih => exact ih.perform hoperation

/-- The texts that come from a server have no NUL. -/
structure TextsNulFree (wallet : Wallet) : Prop where
  creationTransactionHash : ∀ text ∈ wallet.creationTransactionHash, '\x00' ∉ text.toList
  contractVersion : ∀ text ∈ wallet.contractVersion, '\x00' ∉ text.toList

end Wallet

/-! ## Finding a saved wallet -/

namespace DBWalletRepository

open DBTransactionRepository

variable {kit : TextKit} {wallet : Wallet}

/-- No role but `unknown` occurs twice, and what is found under the saved identifier has
everything that the wallet had. -/
structure Survives (kit : TextKit) (table : Table WalletRow.id) (wallet : Wallet) : Prop where
  knownOnce : Wallet.KnownOnce wallet.owners
  found : ∃ loaded, find kit (save table wallet) wallet.id = .ok (some loaded) ∧
    wallet = { loaded with id := wallet.id }

theorem nextText_eq_self_iff {text : Option String} :
    text = nextText (text.map String.toList) ↔ ∀ t ∈ text, '\x00' ∉ t.toList := by
  rw [← map_nextString_eq_self_iff, nextText, Option.map_map, eq_comm]
  rfl

theorem nextInteger_map_text (amount : Option ℤ) :
    nextInteger kit (amount.map Decimal.text) = amount := by
  cases amount with
  | none => rfl
  | some value => exact nextInteger_text value

/-- What is read from the row of a wallet: the texts end at their first NUL. -/
theorem objectFromResultSet_insertionBindings (h : wallet.Kept) :
    objectFromResultSet kit (insertionBindings wallet) = .ok (some { wallet with
      id := String.ofList (Column.nextString wallet.id.toList)
      creationTransactionHash := nextText (wallet.creationTransactionHash.map String.toList)
      contractVersion := nextText (wallet.contractVersion.map String.toList) }) := by
  have hfold : ∀ start : Wallet, start.owners = [] →
      wallet.owners.foldl Wallet.addOwner start = { start with owners := wallet.owners } := by
    intro start hstart
    have hall := @Wallet.foldl_addOwner start wallet.owners
    rw [hstart, List.nil_append] at hall
    exact hall h.knownOnce
  simp only [objectFromResultSet, insertionBindings, WalletState.ofRawValue_rawValue,
    WalletType.ofRawValue_rawValue, OwnerList.deserialized_serialized h.addresses.owners,
    nextAddress_value h.addresses.address, nextAddress_value h.addresses.feePaymentTokenAddress,
    nextAddress_value h.addresses.masterCopyAddress, nextInteger_map_text, Trapping.ok_bind,
    Trapping.pure_eq_ok]
  rw [hfold _ rfl]

/-- A wallet that can be made is found as it was saved exactly if the two texts that come from a
server have no NUL. -/
theorem survives_iff_textsNulFree (h : wallet.Reachable) (table : Table WalletRow.id) :
    Survives kit table wallet ↔ wallet.TextsNulFree := by
  have hrow : (save table wallet).find wallet.id.toList = some (insertionBindings wallet) :=
    Table.find_save_self
  have hfind : find kit (save table wallet) wallet.id =
      objectFromResultSet kit (insertionBindings wallet) := by
    rw [find, hrow]
  rw [objectFromResultSet_insertionBindings h.kept] at hfind
  constructor
  · rintro ⟨-, loaded, hloaded, hsame⟩
    rw [hfind] at hloaded
    cases hloaded
    exact ⟨nextText_eq_self_iff.mp (congrArg Wallet.creationTransactionHash hsame),
      nextText_eq_self_iff.mp (congrArg Wallet.contractVersion hsame)⟩
  · intro htexts
    refine ⟨h.kept.knownOnce, _, hfind, ?_⟩
    have hhash := nextText_eq_self_iff.mpr htexts.creationTransactionHash
    have hversion := nextText_eq_self_iff.mpr htexts.contractVersion
    rw [← hhash, ← hversion]

/-- The address whose digits are all the same. -/
def repeated (digit : Char) : Address := ⟨String.ofList ('0' :: 'x' :: List.replicate 40 digit)⟩

/-- The calls with which a wallet gets owners of several roles, among them two that are not
known, and hears of the version of its master copy. -/
def growing (version : String) : List Wallet.Operation :=
  [.addOwner ⟨repeated '2', .keycard⟩, .addOwner ⟨repeated '3', .paperWallet⟩,
    .addOwner ⟨repeated '4', .paperWalletDerived⟩, .addOwner ⟨repeated '5', .unknown⟩,
    .addOwner ⟨repeated '6', .unknown⟩, .changeContractVersion (some version)]

/-- A wallet with these owners whose master copy has reported a version. -/
def versioned (version : String) : Wallet :=
  (growing version).foldl Wallet.perform (Wallet.new "W" Address.zero)

theorem versioned_reachable (version : String) : (versioned version).Reachable := by
  have hvalue : ∀ digit ∈ ['2', '3', '4', '5', '6'], (digitValue digit).isSome := by
    simp only [List.forall_mem_cons, List.not_mem_nil, false_imp_iff, implies_true, and_true]
    exact ⟨rfl, rfl, rfl, rfl, rfl⟩
  have hwf : ∀ digit ∈ ['2', '3', '4', '5', '6'], (repeated digit).WellFormed := by
    intro digit hdigit
    have hlength : (List.replicate 40 digit).length = 40 := by simp only [List.length_replicate]
    refine Address.wellFormed_of_toList String.toList_ofList hlength ?_
    intro c hc
    rw [List.eq_of_mem_replicate hc]
    exact hvalue digit hdigit
  have hgrowing : ∀ operation ∈ growing version, operation.WellFormed := by
    simpa [growing, Wallet.Operation.WellFormed] using hwf
  have hall : ∀ (operations : List Wallet.Operation) (wallet : Wallet), wallet.Reachable →
      (∀ operation ∈ operations, operation.WellFormed) →
        (operations.foldl Wallet.perform wallet).Reachable := by
    intro operations
    induction operations with
    | nil => exact fun _ hwallet _ => hwallet
    | cons operation rest ih =>
        intro wallet hwallet hwf
        exact ih _ (.perform wallet operation hwallet (hwf operation List.mem_cons_self))
          fun later hlater => hwf later (List.mem_cons_of_mem _ hlater)
  exact hall _ _ (.new "W" Address.zero Address.not_hasLetters_zero.1) hgrowing

theorem versioned_survives :
    ((versioned "1.1.1").owners.map Owner.role =
        [.thisDevice, .keycard, .paperWallet, .paperWalletDerived, .unknown, .unknown]) ∧
      Survives marks Table.empty (versioned "1.1.1") := by
  refine ⟨by decide +kernel,
    (survives_iff_textsNulFree (versioned_reachable "1.1.1") Table.empty).mpr ⟨?_, ?_⟩⟩
  · intro t ht
    have hnone : (versioned "1.1.1").creationTransactionHash = none := by decide +kernel
    rw [hnone] at ht
    cases ht
  · intro t ht
    have hversion : (versioned "1.1.1").contractVersion = some "1.1.1" := by decide +kernel
    rw [hversion] at ht
    cases ht
    decide

/-- The version is found without its end. -/
theorem nulVersion_cut : (versioned "1.1.1\x00-r2").Reachable ∧
    ¬Survives marks Table.empty (versioned "1.1.1\x00-r2") := by
  refine ⟨versioned_reachable _, ?_⟩
  rintro ⟨-, loaded, hloaded, hsame⟩
  have hcut : find marks (save Table.empty (versioned "1.1.1\x00-r2")) "W" =
      .ok (some (versioned "1.1.1")) := by decide +kernel
  have hid : (versioned "1.1.1\x00-r2").id = "W" := by decide +kernel
  rw [hid, hcut] at hloaded
  cases hloaded
  have hversion := congrArg Wallet.contractVersion hsame
  revert hversion
  decide +kernel

end DBWalletRepository

end SafeWallet
