/-
# The keys of the recovery phrase

When a wallet is ready to use, the keys of its recovery phrase must leave the device. After a
recovery they are removed first, and the browser extension is told afterwards, whatever comes of
it. After a creation the extension is told first, and an error keeps the keys: the event has been
delivered, the wallet stays ready to use, and nothing removes the keys later.
-/

import SafeWallet.Deployment.DeploymentService
import SafeWallet.Recovery.FailedCheck

namespace SafeWallet

/-- The two ways in which a wallet becomes ready to use. -/
inductive Completion
  | creation
  | recovery
  deriving DecidableEq, Repr

/-- The keys of the recovery phrase are not on the device. -/
def Wallet.KeysRemoved (wallet : Wallet) (store : Store) : Prop :=
  ∀ role ∈ [OwnerRole.paperWallet, .paperWalletDerived], ∀ owner,
    wallet.owner role = some owner → store.externallyOwnedAccounts.find owner.address = none

namespace Completion

/-- What runs when a wallet is complete. -/
def handler (services : Services) (walletID : WalletID) : Completion → Call Unit
  | .creation => DeploymentDomainService.executeInWallet services .walletCreated walletID
  | .recovery => RecoveryDomainService.postProcessing services walletID

variable (services : Services) (outside : Outside) (app : App) (wallet : Wallet)

/-- The stored wallet is ready to use. -/
def Ready (app : App) (walletID : WalletID) : Prop :=
  ∃ wallet, app.store.wallets.find walletID = some wallet ∧ wallet.state = .readyToUse

/-- A created wallet is ready to use before its handler runs, a recovered one after its checks. -/
def Reaches : Completion → Prop
  | .creation => wallet.state = .readyToUse
  | .recovery => ∃ app',
      (RecoveryDomainService.postProcessing services wallet.id).alone outside app = (.ok (), app') ∧
      Ready app' wallet.id

/-- The handler ends with the keys removed and the wallet ready to use. -/
def Completes (completion : Completion) : Prop :=
  ∃ app', (completion.handler services wallet.id).alone outside app = (.ok (), app') ∧
    Ready app' wallet.id ∧ wallet.KeysRemoved app'.store

/-- When the keys do not stay: after a creation nothing must be told, or telling it works, or there
are no keys in the first place. -/
def Removes : Completion → Prop
  | .creation => CommunicationDomainService.notifyWalletCreatedIfNeeded wallet.id app outside =
      .ok () ∨ wallet.KeysRemoved app.store
  | .recovery => True

variable {services outside app wallet} {app' : App} {paper derived : Owner}

/-- Removing the two keys is enough. -/
theorem keysRemoved_of_remove (hpaper : wallet.owner .paperWallet = some paper)
    (hderived : wallet.owner .paperWalletDerived = some derived) {store store' : Store}
    (h : store'.externallyOwnedAccounts =
      (store.externallyOwnedAccounts.remove paper.address).remove derived.address) :
    wallet.KeysRemoved store' := by
  intro role hrole owner howner
  simp only [List.mem_cons, List.not_mem_nil, or_false] at hrole
  rw [h]
  rcases hrole with rfl | rfl
  · rw [hpaper] at howner
    cases howner
    simp [Table.find_remove]
  · rw [hderived] at howner
    cases howner
    simp [Table.find_remove]

/-! ## After a creation -/

/-- What the handler leaves: an error of the notification ends it before the keys are removed. -/
def afterCreation (outside : Outside) (app : App) (wallet : Wallet) (paper derived : Owner) : App :=
  match CommunicationDomainService.notifyWalletCreatedIfNeeded wallet.id app outside with
  | .error _ => app
  | .ok _ => (app.modify (Store.removeKey paper.address)).modify (Store.removeKey derived.address)

/-- Cancelling a wallet that is ready to use does nothing. -/
theorem alone_handleError (hready : wallet.state = .readyToUse) (error : Option RequestError) :
    (DeploymentDomainService.handleError ⟨wallet, error⟩).alone outside app = (.ok (), app) := by
  match error with
  | none => rfl
  | some .network => rfl
  | some .other =>
      have hcancel : wallet.cancel.alone outside app = (.ok wallet, app) := by
        rw [Wallet.cancel, hready]
        rfl
      rw [DeploymentDomainService.handleError, Process.alone_bind_of_ok hcancel]
      rfl

/-- So the handler of a created wallet always returns. -/
theorem alone_creation (hwallet : app.store.wallets.find wallet.id = some wallet)
    (hready : wallet.state = .readyToUse) (hpaper : wallet.owner .paperWallet = some paper)
    (hderived : wallet.owner .paperWalletDerived = some derived) :
    (DeploymentDomainService.executeInWallet services .walletCreated wallet.id).alone outside app =
      (.ok (), afterCreation outside app wallet paper derived) := by
  have hpost : ∃ error, (DeploymentDomainService.postProcessCreation wallet).alone outside app =
      (.ok ⟨wallet, error⟩, afterCreation outside app wallet paper derived) := by
    rw [DeploymentDomainService.postProcessCreation, Process.alone_query_bind, afterCreation]
    cases CommunicationDomainService.notifyWalletCreatedIfNeeded wallet.id app outside with
    | error error => exact ⟨some error, rfl⟩
    | ok _ =>
        simp only [hpaper, hderived]
        exact ⟨none, rfl⟩
  obtain ⟨error, hpost⟩ := hpost
  rw [DeploymentDomainService.executeInWallet, Process.alone_bind_of_ok (Call.alone_findWallet _),
    hwallet]
  simp only [DeploymentDomainService.action]
  rw [Process.alone_bind_of_ok hpost]
  exact alone_handleError hready error

theorem completes_creation_iff (hwallet : app.store.wallets.find wallet.id = some wallet)
    (hready : wallet.state = .readyToUse) (hpaper : wallet.owner .paperWallet = some paper)
    (hderived : wallet.owner .paperWalletDerived = some derived) :
    creation.Completes services outside app wallet ↔ creation.Removes outside app wallet := by
  have hrun : (creation.handler services wallet.id).alone outside app =
      (.ok (), afterCreation outside app wallet paper derived) :=
    alone_creation hwallet hready hpaper hderived
  have hcompletes : creation.Completes services outside app wallet ↔
      wallet.KeysRemoved (afterCreation outside app wallet paper derived).store := by
    constructor
    · rintro ⟨app', hrun', -, hremoved⟩
      rw [hrun] at hrun'
      cases hrun'
      exact hremoved
    · intro hremoved
      refine ⟨_, hrun, ⟨wallet, ?_, hready⟩, hremoved⟩
      unfold afterCreation
      split
      · exact hwallet
      · exact hwallet
  rw [hcompletes, Removes, afterCreation]
  cases CommunicationDomainService.notifyWalletCreatedIfNeeded wallet.id app outside with
  | error error => simp
  | ok _ =>
      simp only [true_or, iff_true]
      exact keysRemoved_of_remove hpaper hderived rfl

/-! ## After a recovery -/

/-- A transition leaves the keys. -/
theorem accounts_of_movesTo {wallet wallet' : Wallet} {store store' : Store}
    (h : wallet.MovesTo wallet' store store') :
    store'.externallyOwnedAccounts = store.externallyOwnedAccounts := by
  rcases h.stored with ⟨-, hsame⟩ | hsaved
  · rw [hsame]
  · rw [hsaved]

/-- The last steps of a recovery remove the keys. -/
theorem finish_removes (hpaper : wallet.owner .paperWallet = some paper)
    (hderived : wallet.owner .paperWalletDerived = some derived)
    (h : (RecoveryDomainService.finish wallet).alone outside app = (.ok (), app')) :
    wallet.KeysRemoved app'.store := by
  let removed := (app.modify (Store.removeKey paper.address)).modify
    (Store.removeKey derived.address)
  have hsplit : (RecoveryDomainService.finish wallet).alone outside app =
      (wallet.proceed >>= fun wallet => Call.saveWallet (wallet.removeOwner .unknown)).alone
        outside removed := by
    rw [RecoveryDomainService.finish, hpaper, hderived]
    rfl
  rw [hsplit] at h
  have hends : Wallet.EndsMoved wallet.proceed wallet outside removed ∨ _ := Wallet.proceed_ends
  rcases hends with ⟨wallet', moved, hproceed, hmoves⟩ | ⟨-, reason, hproceed⟩
  · rw [Process.alone_bind_of_ok hproceed] at h
    have happ : moved.saveWallet (wallet'.removeOwner .unknown) = app' := congrArg Prod.snd h
    have haccounts : app'.store.externallyOwnedAccounts = removed.store.externallyOwnedAccounts := by
      rw [← happ]
      change moved.store.externallyOwnedAccounts = removed.store.externallyOwnedAccounts
      exact accounts_of_movesTo hmoves
    exact keysRemoved_of_remove hpaper hderived haccounts
  · rw [Process.alone_bind_of_error hproceed] at h
    cases h

/-- A recovered wallet has passed both checks. -/
theorem finish_of_check {contract : Address}
    (h : (RecoveryDomainService.check services wallet wallet.id contract).alone outside app =
      (.ok (), app')) (hready : Ready app' wallet.id) :
    ∃ checked, (RecoveryDomainService.finish wallet).alone outside checked = (.ok (), app') := by
  have habandon : ∀ app₁, (RecoveryDomainService.abandon wallet wallet.id).alone outside app₁ ≠
      (.ok (), app') := by
    intro app₁ hrun
    obtain ⟨app₂, hrun', hgone⟩ :=
      RecoveryDomainService.abandon_ends wallet wallet.id outside app₁
    rw [hrun] at hrun'
    cases hrun'
    obtain ⟨wallet', hfound, -⟩ := hready
    rw [hgone] at hfound
    cases hfound
  unfold RecoveryDomainService.check at h
  rw [Process.alone_bind] at h
  split at h
  · rename_i remoteOwners app₁ howners
    split at h
    · exact absurd h (habandon _)
    · rename_i remoteOwners
      split at h
      · rw [Process.alone_bind] at h
        split at h
        · split at h
          · exact absurd h (habandon _)
          · split at h
            · exact ⟨_, h⟩
            · exact absurd h (habandon _)
        · cases h
      · exact absurd h (habandon _)
  · cases h

/-- Post-processing that returns has made the checks. -/
theorem check_of_postProcessing (hwallet : app.store.wallets.find wallet.id = some wallet)
    (h : (RecoveryDomainService.postProcessing services wallet.id).alone outside app =
      (.ok (), app')) :
    ∃ contract asked, (RecoveryDomainService.check services wallet wallet.id contract).alone outside
      asked = (.ok (), app') := by
  rw [RecoveryDomainService.postProcessing, Process.alone_bind_of_ok (Call.alone_findWallet _),
    hwallet] at h
  simp only [Process.alone_bind, Process.alone_lift] at h
  split at h
  · split at h
    · split at h
      · exact ⟨_, _, h⟩
      · cases h
    · cases h
  · cases h

/-- The keys of a recovered wallet are gone. -/
theorem completes_recovery (hwallet : app.store.wallets.find wallet.id = some wallet)
    (hpaper : wallet.owner .paperWallet = some paper)
    (hderived : wallet.owner .paperWalletDerived = some derived)
    (h : recovery.Reaches services outside app wallet) :
    recovery.Completes services outside app wallet := by
  obtain ⟨app', hrun, hready⟩ := h
  refine ⟨app', hrun, hready, ?_⟩
  obtain ⟨contract, asked, hcheck⟩ := check_of_postProcessing hwallet hrun
  obtain ⟨checked, hfinish⟩ := finish_of_check hcheck hready
  exact finish_removes hpaper hderived hfinish

/-- After its handler has run, a completed wallet is ready to use and has lost the keys of its
phrase, exactly if it was recovered, or its extension has been told or need not be. -/
theorem completes_iff_removes (completion : Completion)
    (hwallet : app.store.wallets.find wallet.id = some wallet)
    (hpaper : wallet.owner .paperWallet = some paper)
    (hderived : wallet.owner .paperWalletDerived = some derived)
    (h : completion.Reaches services outside app wallet) :
    completion.Completes services outside app wallet ↔ completion.Removes outside app wallet := by
  cases completion with
  | creation => exact completes_creation_iff hwallet h hpaper hderived
  | recovery => exact iff_of_true (completes_recovery hwallet hpaper hderived h) trivial

/-! ## A creation whose extension is told or not -/

section Example

open RecoveryTransactionBuilder RecoveryDomainService

/-- A created wallet with a browser extension. -/
def createdWallet : Wallet :=
  { recoveryWallet deviceAddress paperAddress derivedAddress (some authenticatorAddress) with
    state := .readyToUse }

/-- The program with that wallet, the key of this device and the keys of the phrase. -/
def createdApp : App := .ofStore
  { Store.ofWallets (Table.empty.save createdWallet) Table.empty with
    externallyOwnedAccounts :=
      ((Table.empty.save ⟨.ofChain deviceAddress, [1]⟩).save ⟨.ofChain paperAddress, [2]⟩).save
        ⟨.ofChain derivedAddress, [3]⟩ }

/-- A notification service that gives an answer. -/
def notifying (answer : Answer Unit) : Outside :=
  { offline with deployment := { notifyWalletCreated := answer } }

theorem toldExtension_completes :
    creation.Completes offlineServices (notifying (.ok ())) createdApp createdWallet := by
  have hready : creation.Reaches offlineServices (notifying (.ok ())) createdApp createdWallet := rfl
  exact (completes_iff_removes creation rfl rfl rfl hready).mpr (.inl rfl)

/-- The notification service answers with an error, and the keys stay. -/
theorem untoldExtension_not_completes :
    creation.Reaches offlineServices (notifying (.error .other)) createdApp createdWallet ∧
      createdApp.store.wallets.find createdWallet.id = some createdWallet ∧
      ¬creation.Completes offlineServices (notifying (.error .other)) createdApp createdWallet := by
  refine ⟨rfl, rfl, ?_⟩
  rw [completes_creation_iff rfl rfl rfl rfl]
  rintro (htold | hremoved)
  · cases htold
  · have hpaper := hremoved .paperWallet List.mem_cons_self ⟨.ofChain paperAddress, .paperWallet⟩ rfl
    revert hpaper
    decide

end Example

end Completion

end SafeWallet
