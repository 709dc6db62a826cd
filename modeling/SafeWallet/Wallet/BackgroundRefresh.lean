/-
# Refreshing while the user acts

`updateSafeInfo` reads a wallet, waits for the relay and saves the object that it has
read as a whole row. Whatever was written to the row in the meantime is lost: a row
that was removed is inserted again, and the fee token and the roles of the owners are
those of the time of the read.
-/

import SafeWallet.Wallet.OwnerServices

namespace SafeWallet

namespace TransactionRelayService

/-! ## The object that is saved -/

/-- The owners of an answer, in lower case. -/
def remote (kit : EthereumKit) (info : SafeInfo) : List Address :=
  info.owners.map fun owner => (kit.address owner).normalized

/-- The owners that only the answer has. -/
def unknownOwners (kit : EthereumKit) (wallet : Wallet) (info : SafeInfo) : List Owner :=
  (wallet.additional (remote kit info)).map fun owner => ⟨kit.ethAddress owner.value, .unknown⟩

/-- Owners of no known role are appended. -/
theorem foldl_addOwner_unknown (f : Address → Address) (added : List Address) (wallet : Wallet) :
    added.foldl (fun wallet owner => wallet.addOwner ⟨f owner, .unknown⟩) wallet =
      { wallet with owners := wallet.owners ++ added.map fun owner => ⟨f owner, .unknown⟩ } := by
  induction added generalizing wallet with
  | nil => simp
  | cons owner rest ih =>
      rw [List.foldl_cons, ih]
      simp [Wallet.addOwner]

/-- The owners that stay are those the answer has too, with their roles. -/
theorem withSafeInfo_eq (kit : EthereumKit) (wallet : Wallet) (info : SafeInfo) :
    withSafeInfo kit wallet info =
      { wallet with
        address := some (kit.address info.address)
        masterCopyAddress := some (kit.address info.masterCopy)
        confirmationCount := info.threshold
        contractVersion := some info.version
        owners := wallet.known (remote kit info) ++ unknownOwners kit wallet info } := by
  rw [withSafeInfo, foldl_addOwner_unknown, Wallet.additional_removeMissing,
    Wallet.removeMissing_eq]
  rfl

variable {kit : EthereumKit} {object : Wallet} {info : SafeInfo} {o : Owner}

theorem withSafeInfo_fields :
    (withSafeInfo kit object info).id = object.id ∧
      (withSafeInfo kit object info).state = object.state ∧
      (withSafeInfo kit object info).address = some (kit.address info.address) := by
  rw [withSafeInfo_eq]
  exact ⟨rfl, rfl, rfl⟩

/-- The owners with a role are those of the object that the answer has. -/
theorem mem_withSafeInfo (hrole : o.role ≠ .unknown) :
    o ∈ (withSafeInfo kit object info).owners ↔
      o ∈ object.owners ∧ o.address.normalized ∈ remote kit info := by
  rw [withSafeInfo_eq, List.mem_append]
  have hunknown : o ∉ unknownOwners kit object info := by
    intro hmem
    obtain ⟨_, -, rfl⟩ := List.mem_map.mp hmem
    exact hrole rfl
  simp [hunknown, Wallet.known]

/-! ## Interleavings -/

/-- What the user does to a wallet, and what ends the user's changes of its owners. The
wallet is the named one, the selected one or that of the transaction. -/
inductive UserAction (services : Services) : Call Unit → Prop
  | removeWallet (walletID : WalletID) :
      UserAction services (WalletDomainService.removeWallet walletID)
  | changePaymentToken (token : Token) :
      UserAction services (WalletApplication.changePaymentToken token)
  | connect (transactionID : TransactionID) :
      UserAction services (do let _ ← ConnectTwoFADomainService.postProcess services transactionID)
  | replace (transactionID : TransactionID) :
      UserAction services (do let _ ← ReplaceTwoFADomainService.postProcess services transactionID)
  | disconnect (transactionID : TransactionID) :
      UserAction services (do let _ ← DisconnectTwoFADomainService.postProcess transactionID)
  | replacePhrase (transactionID : TransactionID) :
      UserAction services
        (do let _ ← ReplaceRecoveryPhraseDomainService.postProcess services transactionID)

/-- An action of the user around the read, the request and the save of a refresh. It may
have begun before the read, and may not be over at the save. -/
structure Interleaving (services : Services) where
  safe : Address
  outside : Outside
  action : Call Unit
  byUser : UserAction services action
  begun : App
  atRead : Call Unit
  read : App
  atRequest : Call Unit
  requested : App
  atSave : Call Unit
  written : App
  beforeRead : action.Progress begun atRead read
  beforeRequest : atRead.Progress read atRequest requested
  beforeSave : atRequest.Progress requested atSave written

namespace Interleaving

variable {services : Services} (x : Interleaving services)

/-- The refresh after its read. -/
def afterRead : Call Unit :=
  ((updateSafeInfo services.kit x.safe).advance x.outside 1 x.read).1

/-- The refresh after its request. -/
def afterRequest : Call Unit := (x.afterRead.advance x.outside 1 x.requested).1

/-- The program after the refresh. -/
def saved : App := (x.afterRequest.alone x.outside x.written).2

/-- The wallet that was read is ready to use and the relay answers. -/
def Saves (object : Wallet) (info : SafeInfo) : Prop :=
  x.read.store.findWallet x.safe = some object ∧ object.state.isReadyToUse = true ∧
    x.outside.safeInfo x.safe = some info

/-- A refresh saves the object it has read, or nothing. -/
theorem saved_cases :
    (x.saved = x.written ∧ ∀ object info, ¬ x.Saves object info) ∨
      ∃ object info, x.Saves object info ∧
        x.saved = (x.written.saveWallet (withSafeInfo services.kit object info)).observe
          (.merged x.safe info) := by
  cases hfind : x.read.store.findWallet x.safe with
  | none =>
      refine .inl ⟨?_, fun object info h => ?_⟩
      · simp [saved, afterRequest, afterRead, updateSafeInfo, Call.read, Process.query,
          Process.perform, Process.advance, hfind]
      · simp [Saves, hfind] at h
  | some object =>
      by_cases hready : object.state.isReadyToUse = true
      · cases hinfo : x.outside.safeInfo x.safe with
        | none =>
            refine .inl ⟨?_, fun object info h => ?_⟩
            · simp [saved, afterRequest, afterRead, updateSafeInfo, Call.read, Process.query,
                Process.perform, Process.advance, hfind, hready, hinfo]
            · simp [Saves, hinfo] at h
        | some info =>
            refine .inr ⟨object, info, ⟨hfind, hready, hinfo⟩, ?_⟩
            simp [saved, afterRequest, afterRead, updateSafeInfo, Call.read, Process.query,
              Process.perform, Process.advance, hfind, hready, hinfo]
      · refine .inl ⟨?_, fun other info h => ?_⟩
        · simp [saved, afterRequest, afterRead, updateSafeInfo, Call.read, Process.query,
            Process.perform, Process.advance, hfind, hready]
        · cases hfind.symm.trans h.1
          exact hready h.2.1

end Interleaving

/-! ## What stays of the action -/

/-- The owners of a stored wallet. -/
def storedOwners (store : Store) (walletID : WalletID) : List Owner :=
  ((store.wallets.find walletID).map Wallet.owners).getD []

/-- What happened to a wallet between two states is still so afterwards: it is removed,
or it has its fee token and the roles of its owners. -/
structure Kept (before written after : Store) (walletID : WalletID) : Prop where
  removed : written.wallets.find walletID = none → after.wallets.find walletID = none
  feeToken : ∀ wallet, written.wallets.find walletID = some wallet → ∃ stored,
    after.wallets.find walletID = some stored ∧
      stored.feePaymentTokenAddress = wallet.feePaymentTokenAddress
  rolesWritten : ∀ owner ∈ storedOwners written walletID, owner.role ≠ .unknown →
    owner ∉ storedOwners before walletID → owner ∈ storedOwners after walletID
  rolesTaken : ∀ owner ∈ storedOwners before walletID, owner.role ≠ .unknown →
    owner ∉ storedOwners written walletID → owner ∉ storedOwners after walletID

theorem Kept.of_find_eq {before written after : Store} {walletID : WalletID}
    (h : after.wallets.find walletID = written.wallets.find walletID) :
    Kept before written after walletID where
  removed hnone := by rw [h, hnone]
  feeToken wallet hwallet := ⟨wallet, by rw [h, hwallet], rfl⟩
  rolesWritten owner howner _ _ := by rwa [storedOwners, h]
  rolesTaken owner _ _ hnot := by rwa [storedOwners, h]

/-- The object of a refresh is as current as it has to be: its wallet is stored with its
fee token, no role was written that it lacks, and an owner whose role was taken is not in
the answer. -/
structure Fresh (kit : EthereumKit) (object : Wallet) (info : SafeInfo) (written : Store) :
    Prop where
  stored : ∃ wallet, written.wallets.find object.id = some wallet ∧
    wallet.feePaymentTokenAddress = object.feePaymentTokenAddress
  rolesWritten : ∀ owner ∈ storedOwners written object.id, owner.role ≠ .unknown →
    owner ∈ object.owners
  rolesTaken : ∀ owner ∈ object.owners, owner.role ≠ .unknown →
    owner ∉ storedOwners written object.id → owner.address.normalized ∉ remote kit info

/-- Saving an object keeps what was written exactly if the object is fresh. -/
theorem kept_saveWallet_iff {before : Store} {written : App}
    (hbefore : before.wallets.find object.id = some object) :
    (∀ walletID, Kept before written.store
      (written.saveWallet (withSafeInfo kit object info)).store walletID) ↔
      Fresh kit object info written.store := by
  have hid : (withSafeInfo kit object info).id = object.id := by rw [withSafeInfo_eq]
  have hfee : (withSafeInfo kit object info).feePaymentTokenAddress =
      object.feePaymentTokenAddress := by rw [withSafeInfo_eq]
  have hafter : (written.saveWallet (withSafeInfo kit object info)).store.wallets.find object.id =
      some (withSafeInfo kit object info) := by
    rw [App.saveWallet_wallets, Table.find_save, if_pos hid]
  have howners : storedOwners (written.saveWallet (withSafeInfo kit object info)).store object.id =
      (withSafeInfo kit object info).owners := by
    rw [storedOwners, hafter]
    rfl
  have hread : storedOwners before object.id = object.owners := by simp [storedOwners, hbefore]
  constructor
  · intro hkept
    have hkept := hkept object.id
    constructor
    · cases hwritten : written.store.wallets.find object.id with
      | none =>
          have hnone := hkept.removed hwritten
          rw [hafter] at hnone
          cases hnone
      | some wallet =>
          obtain ⟨stored, hstored, heq⟩ := hkept.feeToken wallet hwritten
          cases hafter.symm.trans hstored
          exact ⟨wallet, rfl, heq.symm.trans hfee⟩
    · intro owner howner hrole
      by_contra hnot
      have hmem := hkept.rolesWritten owner howner hrole (by rwa [hread])
      rw [howners, mem_withSafeInfo hrole] at hmem
      exact hnot hmem.1
    · intro owner howner hrole hnot hremote
      have hgone := hkept.rolesTaken owner (by rwa [hread]) hrole hnot
      rw [howners, mem_withSafeInfo hrole] at hgone
      exact hgone ⟨howner, hremote⟩
  · intro hfresh walletID
    by_cases hsame : walletID = object.id
    · subst hsame
      obtain ⟨wallet, hwallet, hequal⟩ := hfresh.stored
      constructor
      · intro hnone
        cases hwallet.symm.trans hnone
      · intro other hother
        cases hwallet.symm.trans hother
        exact ⟨_, hafter, hfee.trans hequal.symm⟩
      · intro owner howner hrole hnew
        rw [hread] at hnew
        exact absurd (hfresh.rolesWritten owner howner hrole) hnew
      · intro owner howner hrole hnot
        rw [hread] at howner
        rw [howners, mem_withSafeInfo hrole]
        exact fun h => hfresh.rolesTaken owner howner hrole hnot h.2
    · apply Kept.of_find_eq
      rw [App.saveWallet_wallets, Table.find_save, hid, if_neg (Ne.symm hsame)]

/-- What the user did between the read and the save of the refresh is kept. -/
def Interleaving.Keeps {services : Services} (x : Interleaving services) : Prop :=
  ∀ walletID, Kept x.read.store x.written.store x.saved.store walletID

/-- Exactly when an interleaved refresh keeps what the user did. -/
theorem Interleaving.keeps_iff {services : Services} (x : Interleaving services) : x.Keeps ↔
    ∀ object info, x.Saves object info → Fresh services.kit object info x.written.store := by
  rcases x.saved_cases with ⟨hsaved, hnever⟩ | ⟨object, info, hsaves, hsaved⟩
  · constructor
    · exact fun _ object info h => absurd h (hnever object info)
    · intro _ walletID
      rw [hsaved]
      exact Kept.of_find_eq rfl
  · have hfind : x.read.store.wallets.find object.id = some object :=
      Table.find_of_mem (List.mem_of_find?_eq_some hsaves.1)
    rw [Interleaving.Keeps, hsaved, App.observe_store, kept_saveWallet_iff hfind]
    constructor
    · intro hfresh other answer hother
      cases hsaves.1.symm.trans hother.1
      cases hsaves.2.2.symm.trans hother.2.2
      exact hfresh
    · exact fun h => h object info hsaves

/-- A refresh keeps what the user did between its read and its save exactly if it saves
nothing, or its object is still fresh at the save. -/
theorem refresh_keeps_iff {services : Services} (x : Interleaving services) : x.Keeps ↔
    ∀ object info, x.Saves object info → Fresh services.kit object info x.written.store :=
  x.keeps_iff

/-! ## A wallet that comes back -/

section Example

/-- The services of a program without a node. -/
def idleServices : Services := .offline WalletDomainService.queryKit ⟨Address.zero, [], []⟩

/-- A wallet in daily use. -/
def dailyWallet : Wallet where
  id := "daily"
  state := .readyToUse
  owners := [⟨.ofChain 2, .thisDevice⟩]
  address := some (.ofChain 5)
  feePaymentTokenAddress := none
  confirmationCount := 1
  masterCopyAddress := none

/-- A token that fees can be paid with. -/
def feeToken : Token := ⟨"DAI", "Dai", 18, .ofChain 9, ""⟩

/-- The program with this wallet selected. -/
def dailyApp : App :=
  .ofStore
    { Store.ofWallets (Table.empty.save dailyWallet) .empty with
      tokenListItems := Table.empty.save ⟨feeToken, .regular, true, none⟩
      portfolio := some ⟨["daily"], some "daily"⟩ }

/-- The relay reports the wallet as it is. -/
def dailyInfo : SafeInfo := ⟨5, 4, 1, [2], "1.1.1"⟩

/-- The relay answers. -/
def dailyOutside : Outside where
  now := 0
  eth_call _ _ := none
  submitTransaction _ := none
  eth_getTransactionReceipt _ := none
  eth_getBlockByHash _ := none
  safeInfo _ := some dailyInfo

/-- The user acts while the relay is asked. -/
def meanwhile (action : Call Unit) (byUser : UserAction idleServices action)
    (h : (action.alone dailyOutside dailyApp).1 = .ok ()) : Interleaving idleServices where
  safe := .ofChain 5
  outside := dailyOutside
  action := action
  byUser := byUser
  begun := dailyApp
  atRead := action
  read := dailyApp
  atRequest := action
  requested := dailyApp
  atSave := .pure ()
  written := (action.alone dailyOutside dailyApp).2
  beforeRead := .refl _ _
  beforeRequest := .refl _ _
  beforeSave := Process.progress_of_alone (Prod.ext h rfl)

theorem meanwhile_saves {action : Call Unit} {byUser : UserAction idleServices action}
    {h : (action.alone dailyOutside dailyApp).1 = .ok ()} :
    (meanwhile action byUser h).Saves dailyWallet dailyInfo := by
  have hfind : dailyApp.store.findWallet (.ofChain 5) = some dailyWallet := by decide +kernel
  exact ⟨hfind, rfl, rfl⟩

/-- The wallet is removed during a refresh. -/
def removing : Interleaving idleServices :=
  meanwhile _ (.removeWallet "daily") (congrArg Prod.fst WalletDomainService.alone_removeWallet)

/-- A fee token is chosen during a refresh. -/
def choosing : Interleaving idleServices :=
  meanwhile _ (.changePaymentToken feeToken) (by decide +kernel)

/-- A refresh undoes the removal of the wallet and the choice of the fee token. -/
theorem refresh_not_keeps : ¬ removing.Keeps ∧ ¬ choosing.Keeps := by
  constructor
  · intro h
    obtain ⟨wallet, hwallet, -⟩ := (removing.keeps_iff.mp h _ _ meanwhile_saves).stored
    have hfind : dailyApp.store.wallets.find "daily" = some dailyWallet := by decide +kernel
    have hwritten : removing.written.store = dailyApp.store.withoutWallet "daily" := by
      change (Process.alone dailyOutside _ dailyApp).2.store = _
      rw [WalletDomainService.alone_removeWallet]
      rfl
    rw [hwritten] at hwallet
    simp [Store.withoutWallet, hfind, Store.withoutWalletID, Store.withoutWalletData,
      Table.find_remove] at hwallet
  · intro h
    obtain ⟨wallet, hwallet, hfee⟩ := (choosing.keeps_iff.mp h _ _ meanwhile_saves).stored
    have hwritten : choosing.written.store.wallets.find "daily" =
        some { dailyWallet with feePaymentTokenAddress := some (.ofChain 9) } := by decide +kernel
    cases hwritten.symm.trans hwallet
    cases hfee

end Example

end TransactionRelayService

end SafeWallet
