/-
# Deployments that are resumed

`start()` resumes every wallet in a state of the creation, the drafts included. A wallet that
is being deployed only publishes its event again. A draft is deployed, and one that lacks an
owner stops the program: nothing in `start()` asks whether a draft can be deployed. At launch
all drafts are removed first.
-/

import SafeWallet.Deployment.Staleness
import SafeWallet.Wallet.AddressBookRuns

namespace SafeWallet

namespace Wallet

/-- A draft has the owners that its deployment insists on. -/
def IsComplete (wallet : Wallet) : Prop :=
  wallet.hasAllRoles = true ∧ (wallet.owners.length = 3 ∨ wallet.owners.length = 4)

instance (wallet : Wallet) : Decidable wallet.IsComplete := inferInstanceAs (Decidable (_ ∧ _))

/-- The version of a wallet that `resume()` leaves. -/
def resumed (wallet : Wallet) : Wallet :=
  if wallet.state = .draft then
    { wallet with state := .deploying, confirmationCount := wallet.allOwners.length - 2 }
  else wallet

/-- The event that `resume()` publishes. -/
def resumedEvent (wallet : Wallet) : Option DomainEvent :=
  match wallet.state with
  | .draft | .deploying => some (.deploymentStarted wallet.id)
  | .waitingForFirstDeposit => some (.startedWaitingForFirstDeposit wallet.id)
  | .notEnoughFunds => some (.startedWaitingForRemainingFeeAmount wallet.id)
  | .creationStarted => some (.deploymentFunded wallet.id)
  | .finalizingDeployment => some (.creationStarted wallet.id)
  | _ => none

variable {wallet : Wallet} {outside : Outside} {app : App}

theorem length_allOwners : wallet.allOwners.length = wallet.owners.length := by
  simp [allOwners]

/-- The conditions of `resume()` in one. -/
theorem isComplete_iff : wallet.IsComplete ↔
    (wallet.hasAllRoles = true ∧ wallet.allOwners.length ≤ 4) ∧
      (wallet.allOwners.length - 2 = 1 ∨ wallet.allOwners.length - 2 = 2) := by
  rw [IsComplete, length_allOwners]
  constructor
  · rintro ⟨hroles, hlength⟩
    exact ⟨⟨hroles, by omega⟩, by omega⟩
  · rintro ⟨⟨hroles, hle⟩, hlength⟩
    exact ⟨hroles, by omega⟩

/-- What `resume()` leaves, if it returns. -/
structure ResumedIn (wallet : Wallet) (app app' : App) : Prop where
  wallets : app'.store.wallets =
    if wallet.state = .draft then app.store.wallets.save wallet.resumed else app.store.wallets
  queue : ∃ tasks, app'.publisher.queue = app.publisher.queue ++ tasks ∧
    ∀ event, wallet.resumedEvent = some event → .publish event ∈ tasks

/-- A wallet is resumed, unless it is a draft that is not complete. -/
theorem resume_returns (h : wallet.state = .draft → wallet.IsComplete) :
    ∃ app', wallet.resume.alone outside app = (.ok (), app') ∧ wallet.ResumedIn app app' := by
  unfold resume
  cases hstate : wallet.state with
  | draft =>
      obtain ⟨hroles, hconfirmations⟩ := isComplete_iff.mp (h hstate)
      simp only [resumeDraft, if_pos hroles, if_pos hconfirmations]
      refine ⟨_, rfl, ?_, [.publish (.deploymentStarted wallet.id)], rfl, ?_⟩
      · simp only [hstate, ↓reduceIte, resumed]
        rfl
      · intro event hevent
        simp only [resumedEvent, hstate, Option.some.injEq] at hevent
        simp [hevent]
  | deploying | waitingForFirstDeposit | notEnoughFunds | creationStarted | finalizingDeployment =>
      refine ⟨_, rfl, by simp [hstate, App.observe, App.enqueue], _, rfl, ?_⟩
      intro event hevent
      simp only [resumedEvent, hstate, Option.some.injEq] at hevent
      simp [hevent]
  | readyToUse | recoveryDraft | recoveryInProgress | recoveryPostProcessing =>
      refine ⟨_, rfl, by simp [hstate], [], by simp, ?_⟩
      intro event hevent
      simp [resumedEvent, hstate] at hevent

/-- Any other draft stops the program. -/
theorem resume_traps (hstate : wallet.state = .draft) (h : ¬ wallet.IsComplete) :
    wallet.resume.alone outside app = (.error .precondition, app) := by
  rw [isComplete_iff, not_and] at h
  simp only [resume, hstate, resumeDraft]
  split
  · rename_i hroles
    rw [if_neg (h hroles)]
    rfl
  · rfl

end Wallet

namespace DeploymentDomainService

variable {outside : Outside} {app : App} {wallets : List Wallet}

/-! ## The loop -/

/-- What the loop leaves after the given wallets: their events are published, and only their
drafts are deployed. -/
structure AllResumedIn (wallets : List Wallet) (app app' : App) : Prop where
  published : ∀ wallet ∈ wallets, ∀ event, wallet.resumedEvent = some event →
    .publish event ∈ app'.publisher.queue
  queue : ∀ task ∈ app.publisher.queue, task ∈ app'.publisher.queue
  deployed : ∀ wallet ∈ app'.store.wallets.rows, wallet ∈ app.store.wallets.rows ∨
    ∃ draft ∈ wallets, draft.state = .draft ∧ wallet = draft.resumed

theorem AllResumedIn.cons {wallet : Wallet} {app' app'' : App} (h : wallet.ResumedIn app app')
    (hrest : AllResumedIn wallets app' app'') : AllResumedIn (wallet :: wallets) app app'' := by
  obtain ⟨tasks, hqueue, htasks⟩ := h.queue
  constructor
  · intro other hother event hevent
    rcases List.mem_cons.mp hother with rfl | hmem
    · apply hrest.queue
      rw [hqueue]
      exact List.mem_append_right _ (htasks event hevent)
    · exact hrest.published other hmem event hevent
  · intro task htask
    apply hrest.queue
    rw [hqueue]
    exact List.mem_append_left _ htask
  · intro row hrow
    rcases hrest.deployed row hrow with hkept | ⟨draft, hdraft, hstate, rfl⟩
    · rw [h.wallets] at hkept
      split at hkept
      · rename_i hstate
        rcases Table.mem_rows_save.mp hkept with rfl | ⟨hold, -⟩
        · exact .inr ⟨wallet, List.mem_cons_self, hstate, rfl⟩
        · exact .inl hold
      · exact .inl hkept
    · exact .inr ⟨draft, List.mem_cons_of_mem _ hdraft, hstate, rfl⟩

/-- The loop resumes wallets whose drafts are complete. -/
theorem resumeAll_returns (h : ∀ wallet ∈ wallets, wallet.state = .draft → wallet.IsComplete) :
    ∃ app', (Process.each wallets Wallet.resume).alone outside app = (.ok (), app') ∧
      AllResumedIn wallets app app' := by
  induction wallets generalizing app with
  | nil =>
      refine ⟨app, rfl, ⟨?_, fun _ htask => htask, fun _ hrow => .inl hrow⟩⟩
      intro wallet hwallet
      cases hwallet
  | cons wallet rest ih =>
      obtain ⟨app', hwallet, hresumed⟩ := Wallet.resume_returns (h wallet List.mem_cons_self)
      obtain ⟨app'', hrest, hall⟩ := ih fun other hmem => h other (List.mem_cons_of_mem _ hmem)
      refine ⟨app'', ?_, .cons hresumed hall⟩
      rw [Process.each, Process.alone_bind_of_ok hwallet]
      exact hrest

/-- It stops the program at the first draft that is not. -/
theorem resumeAll_traps (h : ∃ wallet ∈ wallets, wallet.state = .draft ∧ ¬ wallet.IsComplete) :
    ∃ app', (Process.each wallets Wallet.resume).alone outside app =
      (.error .precondition, app') := by
  induction wallets generalizing app with
  | nil =>
      obtain ⟨wallet, hmem, -⟩ := h
      cases hmem
  | cons wallet rest ih =>
      rw [Process.each]
      by_cases hwallet : wallet.state = .draft → wallet.IsComplete
      · obtain ⟨app', hdone, -⟩ := Wallet.resume_returns hwallet
        rw [Process.alone_bind_of_ok hdone]
        apply ih
        obtain ⟨other, hmem, hdraft, hnot⟩ := h
        rcases List.mem_cons.mp hmem with rfl | hrest
        · exact absurd (hwallet hdraft) hnot
        · exact ⟨other, hrest, hdraft, hnot⟩
      · obtain ⟨hdraft, hnot⟩ := Classical.not_imp.mp hwallet
        exact ⟨app, Process.alone_bind_of_error (Wallet.resume_traps hdraft hnot)⟩

/-! ## Starting -/

/-- `start()` returns, every wallet it selects has published its event again, and every wallet
that is being deployed afterwards was so before, or it was a deployable draft. -/
def Resumes (outside : Outside) (app : App) : Prop :=
  ∃ app', start.alone outside app = (.ok (), app') ∧
    (∀ wallet ∈ app.store.wallets.rows, wallet.state.isCreationState = true →
      ∃ event, wallet.resumedEvent = some event ∧ .publish event ∈ app'.publisher.queue) ∧
    ∀ wallet ∈ app'.store.wallets.rows, wallet.state = .deploying →
      wallet ∈ app.store.wallets.rows ∨
        ∃ draft ∈ app.store.wallets.rows, draft.state = .draft ∧ draft.hasAllRoles = true ∧
          wallet = draft.resumed

/-- No stored draft lacks an owner or has too many. -/
def DraftsComplete (store : Store) : Prop :=
  ∀ wallet ∈ store.wallets.rows, wallet.state = .draft → wallet.IsComplete

instance (store : Store) : Decidable (DraftsComplete store) :=
  List.decidableBAll (fun wallet : Wallet => wallet.state = .draft → wallet.IsComplete) _

/-- The wallets that `start()` selects. -/
def walletsToCreate (store : Store) : List Wallet :=
  store.wallets.rows.filter fun wallet => wallet.state.isCreationState

/-- Before the loop the subscriptions are renewed. -/
theorem alone_start : ∃ app', app'.store = app.store ∧ start.alone outside app =
    (Process.each (walletsToCreate app.store) Wallet.resume).alone outside app' := by
  refine ⟨_, ?_, rfl⟩
  rfl

theorem exists_resumedEvent {wallet : Wallet} (h : wallet.state.isCreationState = true) :
    ∃ event, wallet.resumedEvent = some event := by
  cases hstate : wallet.state <;> simp_all [WalletState.isCreationState, Wallet.resumedEvent]

/-- `start()` does what it is for exactly if all stored drafts are complete. -/
theorem resumes_iff : Resumes outside app ↔ DraftsComplete app.store := by
  obtain ⟨begun, hstore, hstart⟩ : ∃ app', _ ∧ start.alone outside app = _ := alone_start
  constructor
  · rintro ⟨app', hdone, -⟩ wallet hwallet hdraft
    by_contra hnot
    have hselected : wallet ∈ walletsToCreate app.store :=
      List.mem_filter.mpr ⟨hwallet, by rw [hdraft]; rfl⟩
    obtain ⟨stopped, htrap⟩ : ∃ stopped, (Process.each (walletsToCreate app.store)
        Wallet.resume).alone outside begun = (.error .precondition, stopped) :=
      resumeAll_traps ⟨wallet, hselected, hdraft, hnot⟩
    rw [hstart, htrap] at hdone
    cases hdone
  · intro hcomplete
    have hselected : ∀ wallet ∈ walletsToCreate app.store, wallet.state = .draft →
        wallet.IsComplete := fun wallet hmem => hcomplete wallet (List.mem_filter.mp hmem).1
    obtain ⟨app', hdone, hall⟩ : ∃ app', (Process.each (walletsToCreate app.store)
        Wallet.resume).alone outside begun = (.ok (), app') ∧ AllResumedIn _ begun app' :=
      resumeAll_returns hselected
    refine ⟨app', hstart.trans hdone, ?_, ?_⟩
    · intro wallet hwallet hstate
      obtain ⟨event, hevent⟩ := exists_resumedEvent hstate
      exact ⟨event, hevent, hall.published wallet (List.mem_filter.mpr ⟨hwallet, hstate⟩) event hevent⟩
    · intro wallet hwallet _
      rcases hall.deployed wallet hwallet with hkept | ⟨draft, hdraft, hstate, rfl⟩
      · left
        rwa [hstore] at hkept
      · have hrow := (List.mem_filter.mp hdraft).1
        exact .inr ⟨draft, hrow, hstate, (hcomplete draft hrow hstate).1, rfl⟩

/-! ## Launching -/

/-- A removed wallet has no row left, and no row is new. -/
theorem mem_withoutWallet {store : Store} {walletID : WalletID} {wallet : Wallet}
    (h : wallet ∈ (store.withoutWallet walletID).wallets.rows) :
    wallet ∈ store.wallets.rows ∧ wallet.id ≠ walletID := by
  constructor
  · unfold Store.withoutWallet at h
    split at h
    · exact h
    · exact (Table.mem_rows_remove.mp h).1
  · exact Table.find_eq_none_iff.mp Store.find_withoutWallet wallet h

theorem mem_withoutWallets {removed : List Wallet} {app : App} {wallet : Wallet}
    (h : wallet ∈ (removed.foldl (fun app draft =>
      app.modify fun store => store.withoutWallet draft.id) app).store.wallets.rows) :
    wallet ∈ app.store.wallets.rows ∧ ∀ draft ∈ removed, wallet.id ≠ draft.id := by
  induction removed generalizing app with
  | nil => exact ⟨h, fun _ hmem => absurd hmem List.not_mem_nil⟩
  | cons draft rest ih =>
      obtain ⟨hrow, hrest⟩ := ih h
      obtain ⟨hrow, hne⟩ := mem_withoutWallet hrow
      refine ⟨hrow, fun other hmem => ?_⟩
      rcases List.mem_cons.mp hmem with rfl | hmem
      · exact hne
      · exact hrest other hmem

/-- The portfolio is cleaned up without touching a wallet. -/
theorem cleanUpPortfolio_ends : ∃ app', WalletApplication.cleanUpPortfolio.alone outside app =
    (.ok (), app') ∧ app'.store.wallets = app.store.wallets := by
  rw [WalletApplication.cleanUpPortfolio, Call.read, Process.alone_query_bind]
  generalize (((app.store.portfolio.map Portfolio.wallets).getD []).filter fun walletID =>
    app.store.wallets.find walletID = none) = stale
  induction stale generalizing app with
  | nil => exact ⟨app, rfl, rfl⟩
  | cons walletID rest ih =>
      have hround : (do
          Call.write (Store.removeFromPortfolio walletID)
          WalletDomainService.removeAccounts walletID
          WalletDomainService.removeTransactions walletID : Call Unit).alone outside app =
          (WalletDomainService.removeWalletID walletID).alone outside app := rfl
      rw [Process.each, Process.alone_bind_of_ok
        (hround.trans WalletDomainService.alone_removeWalletID)]
      exact ih

/-- No draft is left after a clean-up. -/
theorem cleanUpDrafts_ends : ∃ app', WalletApplication.cleanUpDrafts.alone outside app =
    (.ok (), app') ∧ ∀ wallet ∈ app'.store.wallets.rows, wallet.state ≠ .draft := by
  rw [WalletApplication.cleanUpDrafts, Call.read, Process.alone_query_bind]
  set drafts := app.store.wallets.rows.filter fun wallet =>
    wallet.state = .draft ∨ wallet.state = .recoveryDraft with hdrafts
  have hremoved : (Process.each drafts fun draft =>
      WalletDomainService.removeWallet draft.id).alone outside app = (.ok (), drafts.foldl
        (fun app draft => app.modify fun store => store.withoutWallet draft.id) app) :=
    Process.alone_each fun _ _ => WalletDomainService.alone_removeWallet
  rw [Process.alone_bind_of_ok hremoved]
  obtain ⟨app', hdone, hwallets⟩ : ∃ app', WalletApplication.cleanUpPortfolio.alone outside _ =
    (.ok (), app') ∧ _ := cleanUpPortfolio_ends
  refine ⟨app', hdone, ?_⟩
  intro wallet hwallet hstate
  rw [hwallets] at hwallet
  obtain ⟨hrow, hne⟩ := mem_withoutWallets hwallet
  have hdraft : wallet ∈ drafts := by
    rw [hdrafts, List.mem_filter]
    exact ⟨hrow, by simp [hstate]⟩
  exact hne wallet hdraft rfl

/-- After a launch all drafts are gone, and the deployments are about to be resumed. -/
theorem appDidFinishLaunching_ends : ∃ app', appDidFinishLaunching.alone outside app =
    (.ok (), app') ∧ DraftsComplete app'.store ∧ .start ∈ app'.deployments := by
  obtain ⟨cleaned, hdone, hnone⟩ : ∃ cleaned, WalletApplication.cleanUpDrafts.alone outside app =
    (.ok (), cleaned) ∧ _ := cleanUpDrafts_ends
  rw [appDidFinishLaunching, Process.alone_bind_of_ok hdone]
  refine ⟨_, rfl, ?_, List.mem_append_right _ List.mem_cons_self⟩
  intro wallet hwallet hstate
  have hrow : wallet ∈ (WalletApplication.repairModel cleaned.store).wallets.rows := hwallet
  rw [Behaves.repairModel_wallets] at hrow
  exact absurd hstate (hnone wallet hrow)

/-- `start()` resumes every wallet it selects exactly if no stored draft is incomplete, and
after a launch it always does. -/
theorem start_resumes_iff (outside : Outside) (app : App) :
    (Resumes outside app ↔ DraftsComplete app.store) ∧
      ∃ launched, appDidFinishLaunching.alone outside app = (.ok (), launched) ∧
        .start ∈ launched.deployments ∧ Resumes outside launched := by
  obtain ⟨launched, hdone, hcomplete, hstart⟩ : ∃ launched,
    appDidFinishLaunching.alone outside app = (.ok (), launched) ∧ _ := appDidFinishLaunching_ends
  exact ⟨resumes_iff, launched, hdone, hstart, resumes_iff.mpr hcomplete⟩

/-- A draft without its recovery phrase cannot be resumed. -/
theorem draftStore_not_resumes : ¬ ∀ store,
    Relation.ReflTransGen AddressStep WalletDomainService.emptyStore store →
      ∀ outside, Resumes outside (.ofStore store) := by
  intro h
  have hcreated : AddressStep WalletDomainService.emptyStore draftStore :=
    ⟨WalletDomainService.loadedServices, RecoveryDomainService.offline,
      .createNewDraftWallet WalletDomainService.deviceAccount, trivial, rfl⟩
  have hresumes := h draftStore (Relation.ReflTransGen.single hcreated)
    RecoveryDomainService.offline
  have hcomplete := resumes_iff.mp hresumes
  have hrow : DeploymentDomainService.draftWallet "A" WalletDomainService.deviceAccount.address ∈
      draftStore.wallets.rows := List.mem_singleton.mpr rfl
  have howners := (hcomplete _ hrow rfl).2
  exact absurd howners (by decide)

end DeploymentDomainService

end SafeWallet
