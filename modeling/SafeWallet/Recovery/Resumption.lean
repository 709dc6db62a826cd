/-
# Resuming an interrupted recovery

`resume` looks at the state of the wallet and at the status of its recovery
transaction, which are saved one after the other, and stops the program at a
combination it does not know. In runs whose calls do not overlap, and which may be
cut by a crash after any action, a recovery in progress always has a submitted
transaction. So `resume` stops the program only for a wallet that is ready to use
and for a draft whose transaction does not wait for its submission. The first
occurs: a launch resumes the recovery in the background, and may have completed it
when the screen that waits for the recovery is shown and resumes it once more.
-/

import SafeWallet.Recovery.Declaration

namespace SafeWallet

/-- The transaction was handed to the chain. -/
def TransactionStatus.isSubmitted (status : TransactionStatus) : Bool :=
  status = .pending ∨ status = .success ∨ status = .failed

/-- The transaction recovers a wallet. -/
def Transaction.Recovers (tx : Transaction) (walletID : WalletID) : Prop :=
  tx.type = .walletRecovery ∧ tx.accountID.walletID = walletID

/-- All recovery transactions of a wallet are submitted. -/
def Store.AllSubmitted (store : Store) (walletID : WalletID) : Prop :=
  ∀ tx ∈ store.transactions.rows, tx.Recovers walletID → tx.status.isSubmitted = true

/-- A recovery in progress has a submitted transaction, and there is at most one
recovery transaction for each wallet. -/
structure Store.Settled (store : Store) : Prop where
  submitted : ∀ wallet ∈ store.wallets.rows, wallet.state.isRecoveryInProgress = true →
    store.AllSubmitted wallet.id
  unique : ∀ tx ∈ store.transactions.rows, ∀ tx' ∈ store.transactions.rows, ∀ walletID,
    tx.Recovers walletID → tx'.Recovers walletID → tx.id = tx'.id

namespace Store

variable {store store' : Store} {wallet : Wallet} {tx tx' : Transaction} {walletID : WalletID}

theorem Settled.of_eq (h : store.Settled) (hwallets : store'.wallets = store.wallets)
    (htransactions : store'.transactions = store.transactions) : store'.Settled := by
  refine ⟨?_, ?_⟩
  · unfold AllSubmitted
    rw [hwallets, htransactions]
    exact h.submitted
  · rw [htransactions]
    exact h.unique

/-- Removing rows does no harm. -/
theorem Settled.of_subset (h : store.Settled)
    (hwallets : ∀ wallet ∈ store'.wallets.rows, wallet ∈ store.wallets.rows)
    (htransactions : ∀ tx ∈ store'.transactions.rows, tx ∈ store.transactions.rows) :
    store'.Settled where
  submitted wallet hmem hstate tx htx :=
    h.submitted wallet (hwallets wallet hmem) hstate tx (htransactions tx htx)
  unique tx htx tx' htx' := h.unique tx (htransactions tx htx) tx' (htransactions tx' htx')

/-- Saving a wallet needs the transaction of its recovery to be submitted. -/
theorem Settled.saveWallet (h : store.Settled)
    (hstate : wallet.state.isRecoveryInProgress = true → store.AllSubmitted wallet.id) :
    Settled { store with wallets := store.wallets.save wallet } where
  submitted wallet' hmem hstate' := by
    rcases Table.mem_rows_save.mp hmem with rfl | ⟨hmem, -⟩
    · exact hstate hstate'
    · exact h.submitted wallet' hmem hstate'
  unique := h.unique

/-- Saving a recovery transaction needs it to be the only one, and submitted if the
recovery is in progress. -/
theorem Settled.saveTransaction (h : store.Settled) (hrecovers : tx.Recovers walletID)
    (honly : ∀ tx' ∈ store.transactions.rows, tx'.Recovers walletID → tx'.id = tx.id)
    (hstatus : tx.status.isSubmitted = true ∨ ∀ wallet ∈ store.wallets.rows,
      wallet.id = walletID → wallet.state.isRecoveryInProgress = false) :
    Settled { store with transactions := store.transactions.store tx } where
  submitted wallet hmem hstate tx' htx' hrecovers' := by
    rcases Table.mem_rows_save.mp htx' with rfl | ⟨htx', -⟩
    · rcases hstatus with hsubmitted | hwallets
      · exact hsubmitted
      · have hid : wallet.id = walletID := hrecovers'.2.symm.trans hrecovers.2
        rw [hwallets wallet hmem hid] at hstate
        cases hstate
    · exact h.submitted wallet hmem hstate tx' htx' hrecovers'
  unique := by
    have hsame : ∀ {tx' : Transaction} {walletID'}, tx'.Recovers walletID' →
        tx.Recovers walletID' → tx'.Recovers walletID :=
      fun h' htx => ⟨h'.1, h'.2.trans (htx.2.symm.trans hrecovers.2)⟩
    intro tx₁ htx₁ tx₂ htx₂ walletID' h₁ h₂
    rcases Table.mem_rows_save.mp htx₁ with rfl | ⟨htx₁, -⟩ <;>
      rcases Table.mem_rows_save.mp htx₂ with rfl | ⟨htx₂, -⟩
    · rfl
    · exact (honly tx₂ htx₂ (hsame h₂ h₁)).symm
    · exact honly tx₁ htx₁ (hsame h₁ h₂)
    · exact h.unique tx₁ htx₁ tx₂ htx₂ walletID' h₁ h₂

/-- Updating a stored transaction to a submitted one is always possible. -/
theorem Settled.updateTransaction (h : store.Settled) (hmem : tx ∈ store.transactions.rows)
    (hid : tx'.id = tx.id) (htype : tx'.type = tx.type) (haccount : tx'.accountID = tx.accountID)
    (hsubmitted : tx'.status.isSubmitted = true) :
    Settled { store with transactions := store.transactions.store tx' } := by
  by_cases hrecovery : tx'.type = .walletRecovery
  · have hrecovers : tx'.Recovers tx'.accountID.walletID := ⟨hrecovery, rfl⟩
    apply h.saveTransaction hrecovers _ (.inl hsubmitted)
    intro other hother hrecovers'
    rw [hid]
    exact h.unique other hother tx hmem _ hrecovers'
      ⟨htype.symm.trans hrecovery, congrArg AccountID.walletID haccount.symm⟩
  · have hold : ∀ {other walletID}, other ∈ (store.transactions.store tx').rows →
        other.Recovers walletID → other ∈ store.transactions.rows := by
      intro other walletID hother hrecovers
      rcases Table.mem_rows_save.mp hother with rfl | ⟨hother, -⟩
      · exact absurd hrecovers.1 hrecovery
      · exact hother
    refine ⟨?_, ?_⟩
    · intro wallet hwallet hstate other hother hrecovers
      exact h.submitted wallet hwallet hstate other (hold hother hrecovers) hrecovers
    · intro tx₁ htx₁ tx₂ htx₂ walletID h₁ h₂
      exact h.unique tx₁ (hold htx₁ h₁) tx₂ (hold htx₂ h₂) walletID h₁ h₂

/-- One submitted recovery transaction is all of them. -/
theorem Settled.allSubmitted (h : store.Settled) (hmem : tx ∈ store.transactions.rows)
    (hrecovers : tx.Recovers walletID) (hsubmitted : tx.status.isSubmitted = true) :
    store.AllSubmitted walletID := by
  intro other hother hrecovers'
  have hid := h.unique other hother tx hmem walletID hrecovers' hrecovers
  have hother' := Table.find_of_mem hother
  rw [hid, Table.find_of_mem hmem] at hother'
  cases hother'
  exact hsubmitted

end Store

namespace RecoveryDomainService

/-! ## The discipline -/

/-- Calls keep the repositories settled; between two actions of a call nobody else
touches them. -/
def settling : Discipline App Place where
  rely app app' := app'.store = app.store
  guarantee app app' := app.store.Settled → app'.store.Settled
  guard _ _ := True
  rely_refl _ := rfl
  rely_trans h h' := h'.trans h

/-- A call each action of which keeps settled repositories settled. -/
def Steady {α : Type} : Call α → Prop
  | .pure _ => True
  | .trap _ => True
  | .act _ effect next => ∀ app outside,
      (app.store.Settled → (effect app outside).store.Settled) ∧ Steady (next app outside)

namespace Steady

variable {α β : Type} {call : Call α}

theorem bind {k : α → Call β} (h : Steady call) (hk : ∀ a, Steady (k a)) :
    Steady (call >>= k) := by
  induction call with
  | pure a => exact hk a
  | trap reason => trivial
  | act label effect next ih =>
      intro app outside
      obtain ⟨hstep, hnext⟩ := h app outside
      exact ⟨hstep, ih app outside hnext⟩

theorem each {bs : List β} {f : β → Call Unit} (h : ∀ b, Steady (f b)) :
    Steady (Process.each bs f) := by
  induction bs with
  | nil => trivial
  | cons b rest ih => exact bind (h b) fun _ => ih

/-- A steady call is sound. -/
theorem sound (h : Steady call) (app : App) :
    call.Sound settling (fun _ _ => True) app := by
  induction call generalizing app with
  | pure a => exact fun _ _ => trivial
  | trap reason => trivial
  | act label effect next ih =>
      intro app' outside _ _
      obtain ⟨hstep, hnext⟩ := h app' outside
      exact ⟨hstep, ih app' outside hnext _⟩

/-! ## Steady calls -/

section Actions

theorem query {place : Place} {f : App → Outside → α} : Steady (Process.query place f) :=
  fun _ _ => ⟨id, trivial⟩

theorem lift (value : Trapping α) : Steady (Process.lift value) := by
  cases value <;> trivial

theorem update {place : Place} {f : App → App} (h : ∀ app, (f app).store = app.store) :
    Steady (Process.update place f) := by
  refine fun app _ => ⟨?_, trivial⟩
  intro (hsettled : app.store.Settled)
  change (f app).store.Settled
  rwa [h]

/-- Writes elsewhere. -/
theorem write {f : Store → Store} (hwallets : ∀ store, (f store).wallets = store.wallets)
    (htransactions : ∀ store, (f store).transactions = store.transactions) :
    Steady (Call.write f) :=
  fun app _ => ⟨fun h => h.of_eq (hwallets app.store) (htransactions app.store), trivial⟩

/-- Removals. -/
theorem removal {f : Store → Store}
    (hwallets : ∀ store, ∀ wallet ∈ (f store).wallets.rows, wallet ∈ store.wallets.rows)
    (htransactions : ∀ store, ∀ tx ∈ (f store).transactions.rows, tx ∈ store.transactions.rows) :
    Steady (Call.write f) :=
  fun app _ => ⟨fun h => h.of_subset (hwallets app.store) (htransactions app.store), trivial⟩

theorem saveWallet {wallet : Wallet} (h : wallet.state.isRecoveryInProgress = false) :
    Steady (Call.saveWallet wallet) := by
  refine fun app _ => ⟨fun hsettled => hsettled.saveWallet ?_, trivial⟩
  intro hstate
  rw [h] at hstate
  cases hstate

theorem publish (event : DomainEvent) : Steady (Call.publish event) := update fun _ => rfl

theorem findRecoveryTransaction (walletID : WalletID) :
    Steady (Call.findRecoveryTransaction walletID) := by
  refine fun app outside => ⟨?_, trivial⟩
  intro (hsettled : app.store.Settled)
  simp only
  split
  · exact hsettled
  · exact hsettled

theorem removeTransaction (id : TransactionID) : Steady (Call.removeTransaction id) :=
  removal (fun _ _ h => h) fun _ _ h => (Table.mem_rows_remove.mp h).1

end Actions

theorem removeAccounts (walletID : WalletID) :
    Steady (WalletDomainService.removeAccounts walletID) :=
  bind query fun _ => each fun _ => write (fun _ => rfl) fun _ => rfl

theorem removeTransactions (walletID : WalletID) :
    Steady (WalletDomainService.removeTransactions walletID) := by
  apply bind query
  intro transactions
  apply each
  intro tx
  apply bind
  · exact removal (fun _ _ h => h) fun _ _ h => (Table.mem_rows_remove.mp h).1
  · exact fun _ => write (fun _ => rfl) fun _ => rfl

theorem removeWalletID (walletID : WalletID) :
    Steady (WalletDomainService.removeWalletID walletID) := by
  apply bind
  · exact write (fun _ => rfl) fun _ => rfl
  · exact fun _ => bind (removeAccounts walletID) fun _ => removeTransactions walletID

theorem removeWalletData (wallet : Wallet) :
    Steady (WalletDomainService.removeWalletData wallet) := by
  apply bind
  · exact removal (fun _ _ h => (Table.mem_rows_remove.mp h).1) fun _ _ h => h
  intro _
  apply bind
  · exact each fun _ => write (fun _ => rfl) fun _ => rfl
  intro _
  cases wallet.address with
  | none => trivial
  | some address => exact bind query fun _ => each fun _ => write (fun _ => rfl) fun _ => rfl

theorem removeWallet (walletID : WalletID) :
    Steady (WalletDomainService.removeWallet walletID) := by
  apply bind query
  intro found
  cases found with
  | none => exact removeWalletID walletID
  | some wallet => exact bind (removeWalletData wallet) fun _ => removeWalletID walletID

theorem subscribeForTransactionProcessing (walletID : WalletID) :
    Steady (subscribeForTransactionProcessing walletID) := by
  apply bind query
  intro found
  cases found with
  | none => trivial
  | some wallet =>
      apply bind (findRecoveryTransaction walletID)
      intro tx
      apply bind (lift _)
      intro tx
      split
      · exact update fun _ => rfl
      · trivial

theorem createRecoverDraftWallet (services : Services) (account : ExternallyOwnedAccount) :
    Steady (createRecoverDraftWallet services account) := by
  apply bind
  · exact write (fun _ => rfl) fun _ => rfl
  intro _
  apply bind query
  intro walletID
  apply bind (saveWallet rfl)
  intro _
  apply bind
  · exact write (fun _ => rfl) fun _ => rfl
  · exact fun _ => write (fun _ => rfl) fun _ => rfl

theorem cleanUpStaleTransactions : Steady TransactionDomainService.cleanUpStaleTransactions :=
  bind query fun _ => each fun tx => removeTransaction tx.id

theorem cleanUpDrafts : Steady WalletApplication.cleanUpDrafts := by
  apply bind query
  intro drafts
  apply bind
  · exact each fun draft => removeWallet draft.id
  · exact fun _ => bind query fun stale => each fun walletID => removeWalletID walletID

theorem repairModel : Steady (Call.write WalletApplication.repairModel) := by
  apply write
  · intro store
    unfold WalletApplication.repairModel
    split <;> rfl
  · intro store
    unfold WalletApplication.repairModel
    split <;> rfl

theorem appDidFinishLaunching : Steady WalletApplication.appDidFinishLaunching := by
  apply bind cleanUpDrafts
  intro _
  apply bind repairModel
  intro _
  have hresume : Steady WalletApplication.resumeRecoveryInBackground := update fun _ => rfl
  exact bind hresume fun _ => update fun _ => rfl

end Steady

/-! ## Calls that depend on what they have read -/

variable {services : Services} {app : App} {walletID : WalletID} {wallet : Wallet}

/-- An action that is known to keep the repositories settled. -/
theorem saveWallet_sound {post : Unit → App → Prop}
    (hsettled : wallet.state.isRecoveryInProgress = true → app.store.AllSubmitted wallet.id)
    (hpost : ∀ app', app'.store = { app.store with wallets := app.store.wallets.save wallet } →
      post () app') :
    (Call.saveWallet wallet).Sound settling post app := by
  apply Process.Sound.perform
  intro app₁ outside (hsame : app₁.store = app.store) _
  refine ⟨fun h => h.saveWallet ?_, fun app₂ (hsame₂ : app₂.store = _) => hpost app₂ ?_⟩
  · rw [hsame]
    exact hsettled
  · rw [hsame₂, ← hsame]
    rfl

/-- With its recovery transactions submitted, a wallet may enter any state. -/
theorem enter_settled {state : WalletState} {event : Option DomainEvent}
    (hsubmitted : app.store.AllSubmitted wallet.id) :
    (wallet.enter state event).Sound settling (fun wallet' app' =>
      wallet'.id = wallet.id ∧ app'.store.AllSubmitted wallet.id) app := by
  apply Process.Sound.bind
  apply saveWallet_sound
  · exact fun _ => hsubmitted
  intro app₁ hsame₁
  have hsubmitted₁ : app₁.store.AllSubmitted wallet.id := by
    rw [hsame₁]
    exact hsubmitted
  have hend : ∀ app₂ : App, app₂.store = app₁.store → app₂.store.AllSubmitted wallet.id := by
    intro app₂ hsame₂
    rw [hsame₂]
    exact hsubmitted₁
  cases event with
  | none => exact fun app₂ hsame₂ => ⟨rfl, hend app₂ hsame₂⟩
  | some event =>
      intro app₂ outside hsame₂ _
      refine ⟨fun h => h, fun app₃ hsame₃ => ⟨rfl, hend app₃ ?_⟩⟩
      exact Eq.trans hsame₃ hsame₂

theorem pure_settled (hsubmitted : app.store.AllSubmitted wallet.id) :
    (Process.pure wallet : Call Wallet).Sound settling (fun wallet' app' =>
      wallet'.id = wallet.id ∧ app'.store.AllSubmitted wallet.id) app := by
  intro app' (hsame : app'.store = app.store)
  rw [hsame]
  exact ⟨rfl, hsubmitted⟩

theorem proceed_settled (hsubmitted : app.store.AllSubmitted wallet.id) :
    wallet.proceed.Sound settling (fun wallet' app' =>
      wallet'.id = wallet.id ∧ app'.store.AllSubmitted wallet.id) app := by
  unfold Wallet.proceed
  split
  · exact enter_settled hsubmitted
  · exact enter_settled hsubmitted
  · unfold Wallet.proceedWithFirstDeposit
    split
    · trivial
    · apply Process.Sound.bind
      intro app₁ outside (hsame₁ : app₁.store = app.store) _
      refine ⟨id, fun app₂ (hsame₂ : app₂.store = app₁.store) => ?_⟩
      have hsubmitted₂ : app₂.store.AllSubmitted wallet.id := by
        rw [hsame₂, hsame₁]
        exact hsubmitted
      simp only
      split
      · exact pure_settled hsubmitted₂
      · split
        · exact enter_settled hsubmitted₂
        · exact enter_settled hsubmitted₂
  · exact enter_settled hsubmitted
  · exact enter_settled hsubmitted
  · exact enter_settled hsubmitted
  · exact pure_settled hsubmitted
  · exact enter_settled hsubmitted
  · exact enter_settled hsubmitted
  · exact enter_settled hsubmitted

theorem cancel_settled (hsubmitted : app.store.AllSubmitted wallet.id) :
    wallet.cancel.Sound settling (fun _ _ => True) app := by
  have henter : ∀ {state event}, (wallet.enter state event).Sound settling (fun _ _ => True) app :=
    (enter_settled hsubmitted).mono fun _ _ _ => trivial
  unfold Wallet.cancel
  split
  · exact fun _ _ => trivial
  · exact fun _ _ => trivial
  · exact fun _ _ => trivial
  · exact henter
  · exact henter
  · exact henter
  · exact henter
  · apply Steady.sound
    exact Steady.bind (Steady.publish _) fun _ => trivial
  · exact henter
  · exact henter

theorem abandon_settled (hid : wallet.id = walletID)
    (hsubmitted : app.store.AllSubmitted walletID) :
    (abandon wallet walletID).Sound settling (fun _ _ => True) app := by
  rw [← hid] at hsubmitted
  apply Process.Sound.bind
  apply (cancel_settled hsubmitted).mono
  exact fun _ app' _ => (Steady.removeWallet walletID).sound app'

/-! ## Reading -/

section Reading

variable {α β : Type} {post : β → App → Prop}

/-- What is read is what is stored, and it stays so. -/
theorem query_bind {place : Place} {f : App → Outside → α} {k : α → Call β}
    (h : ∀ app₁ outside app₂, app₁.store = app.store → app₂.store = app.store →
      (k (f app₁ outside)).Sound settling post app₂) :
    (Process.query place f >>= k).Sound settling post app := by
  apply Process.Sound.bind
  apply Process.Sound.perform
  intro app₁ outside (hsame₁ : app₁.store = app.store) _
  refine ⟨id, fun app₂ (hsame₂ : app₂.store = app₁.store) => ?_⟩
  exact h app₁ outside app₂ hsame₁ (hsame₂.trans hsame₁)

theorem findRecoveryTransaction_bind {k : Option Transaction → Call β}
    (h : ∀ app₂ : App, app₂.store = app.store →
      (k (app.recoveryTransaction walletID)).Sound settling post app₂) :
    (Call.findRecoveryTransaction walletID >>= k).Sound settling post app := by
  apply Process.Sound.bind
  apply Process.Sound.perform
  intro app₁ outside (hsame₁ : app₁.store = app.store) _
  have hfound : app₁.recoveryTransaction walletID = app.recoveryTransaction walletID := by
    rw [App.recoveryTransaction, hsame₁, App.recoveryTransaction]
  rw [← hfound] at h
  cases htx : app₁.recoveryTransaction walletID with
  | none =>
      rw [htx] at h
      exact ⟨id, fun app₂ (hsame₂ : app₂.store = app₁.store) => h app₂ (hsame₂.trans hsame₁)⟩
  | some tx =>
      rw [htx] at h
      exact ⟨id, fun app₂ (hsame₂ : app₂.store = app₁.store) => h app₂ (hsame₂.trans hsame₁)⟩

theorem lift_bind {value : Trapping α} {k : α → Call β}
    (h : ∀ a, value = .ok a → ∀ app₂ : App, app₂.store = app.store →
      (k a).Sound settling post app₂) :
    (Process.lift value >>= k).Sound settling post app := by
  apply Process.Sound.bind
  exact Process.Sound.lift h

theorem getOwners_settled {contract : Address} :
    (Call.getOwners services walletID contract).Sound settling
      (fun _ app' => app'.store = app.store) app := by
  apply Process.Sound.bind
  apply Process.Sound.perform
  intro app₁ outside (hsame₁ : app₁.store = app.store) _
  refine ⟨id, fun app₂ (hsame₂ : app₂.store = app₁.store) => ?_⟩
  apply Process.Sound.lift
  intro _ _ app₃ (hsame₃ : app₃.store = app₂.store)
  rw [hsame₃, hsame₂, hsame₁]

theorem getThreshold_settled {contract : Address} :
    (Call.getThreshold services walletID contract).Sound settling
      (fun _ app' => app'.store = app.store) app := by
  apply Process.Sound.bind
  apply Process.Sound.perform
  intro app₁ outside (hsame₁ : app₁.store = app.store) _
  refine ⟨id, fun app₂ (hsame₂ : app₂.store = app₁.store) => ?_⟩
  apply Process.Sound.lift
  intro _ _ app₃ (hsame₃ : app₃.store = app₂.store)
  rw [hsame₃, hsame₂, hsame₁]

end Reading

/-! ## Completing -/

/-- Removing a key keeps what is known of the transactions. -/
theorem removeKey_settled (address : Address) (hsubmitted : app.store.AllSubmitted walletID) :
    (Call.write (Store.removeKey address)).Sound settling
      (fun _ app' => app'.store.AllSubmitted walletID) app := by
  apply Process.Sound.perform
  intro app₁ outside (hsame₁ : app₁.store = app.store) _
  refine ⟨fun h => h.of_eq rfl rfl, fun app₂ hsame₂ => ?_⟩
  have hsame : app₂.store = Store.removeKey address app.store := by
    rw [← hsame₁]
    exact hsame₂
  rw [hsame]
  exact hsubmitted

theorem finish_settled (hsubmitted : app.store.AllSubmitted wallet.id) :
    (finish wallet).Sound settling (fun _ _ => True) app := by
  apply lift_bind
  intro paper _ app₁ hsame₁
  rw [← hsame₁] at hsubmitted
  apply Process.Sound.bind
  apply (removeKey_settled paper.address hsubmitted).mono
  intro _ app₂ hsubmitted₂
  apply lift_bind
  intro derived _ app₃ hsame₃
  rw [← hsame₃] at hsubmitted₂
  apply Process.Sound.bind
  apply (removeKey_settled derived.address hsubmitted₂).mono
  intro _ app₄ hsubmitted₄
  apply Process.Sound.bind
  apply (proceed_settled hsubmitted₄).mono
  rintro wallet' app₅ ⟨hid, hsubmitted₅⟩
  apply saveWallet_sound _ fun _ _ => trivial
  intro _
  rw [← hid] at hsubmitted₅
  exact hsubmitted₅

theorem check_settled {contract : Address} (hid : wallet.id = walletID)
    (hsubmitted : app.store.AllSubmitted walletID) :
    (check services wallet walletID contract).Sound settling (fun _ _ => True) app := by
  apply Process.Sound.bind
  apply getOwners_settled.mono
  intro remoteOwners app₁ hsame₁
  rw [← hsame₁] at hsubmitted
  cases remoteOwners with
  | none => exact abandon_settled hid hsubmitted
  | some remoteOwners =>
      simp only
      split
      · apply Process.Sound.bind
        apply getThreshold_settled.mono
        intro remoteThreshold app₂ hsame₂
        rw [← hsame₂] at hsubmitted
        cases remoteThreshold with
        | none => exact abandon_settled hid hsubmitted
        | some remoteThreshold =>
            simp only
            split
            · rw [← hid] at hsubmitted
              exact finish_settled hsubmitted
            · exact abandon_settled hid hsubmitted
      · exact abandon_settled hid hsubmitted

theorem postProcessing_settled (hsubmitted : app.store.AllSubmitted walletID) :
    (postProcessing services walletID).Sound settling (fun _ _ => True) app := by
  apply query_bind
  intro app₁ _ app₂ _ hsame₂
  rw [← hsame₂] at hsubmitted
  cases hfind : app₁.store.wallets.find walletID with
  | none => exact fun _ _ => trivial
  | some wallet =>
      apply findRecoveryTransaction_bind
      intro app₃ hsame₃
      apply lift_bind
      intro _ _ app₄ hsame₄
      apply lift_bind
      intro contract _ app₅ hsame₅
      rw [← hsame₃, ← hsame₄, ← hsame₅] at hsubmitted
      exact check_settled (Table.mem_of_find hfind).2 hsubmitted

theorem handling_settled {tx : Transaction}
    (hsubmitted : tx.status.isSubmitted = true → app.store.AllSubmitted walletID) :
    (handleTransactionProgress services tx walletID).Sound settling (fun _ _ => True) app := by
  apply query_bind
  intro app₁ _ app₂ _ hsame₂
  rw [← hsame₂] at hsubmitted
  cases hfind : app₁.store.wallets.find walletID with
  | none => exact fun _ _ => trivial
  | some wallet =>
      obtain ⟨-, rfl⟩ := Table.mem_of_find hfind
      cases hstatus : tx.status with
      | success =>
          rw [hstatus] at hsubmitted
          apply Process.Sound.bind
          apply (proceed_settled (hsubmitted rfl)).mono
          rintro _ app₃ ⟨-, hsubmitted₃⟩
          exact postProcessing_settled hsubmitted₃
      | failed =>
          rw [hstatus] at hsubmitted
          apply Process.Sound.bind
          apply (proceed_settled (hsubmitted rfl)).mono
          rintro wallet' app₃ ⟨hid, hsubmitted₃⟩
          exact abandon_settled hid hsubmitted₃
      | draft => exact fun _ _ => trivial
      | signing => exact fun _ _ => trivial
      | pending => exact fun _ _ => trivial
      | rejected => exact fun _ _ => trivial

/-! ## Submitting and resuming -/

theorem recoveryTransaction_spec {tx : Transaction}
    (h : app.recoveryTransaction walletID = some tx) :
    tx ∈ app.store.transactions.rows ∧ tx.Recovers walletID :=
  Transactions.findType_spec h

/-- What is known of the recovery transaction is known of all. -/
theorem allSubmitted_of_recoveryTransaction {tx : Transaction} (hsettled : app.store.Settled)
    (htx : app.recoveryTransaction walletID = some tx) (hsubmitted : tx.status.isSubmitted = true) :
    app.store.AllSubmitted walletID :=
  hsettled.allSubmitted (recoveryTransaction_spec htx).1 (recoveryTransaction_spec htx).2 hsubmitted

/-- An action on the queues. -/
theorem update_bind {β : Type} {post : β → App → Prop} {place : Place} {f : App → App}
    {k : Unit → Call β} (hf : ∀ app, (f app).store = app.store)
    (h : ∀ app₂ : App, app₂.store = app.store → (k ()).Sound settling post app₂) :
    (Process.update place f >>= k).Sound settling post app := by
  apply Process.Sound.bind
  apply Process.Sound.perform
  intro app₁ outside (hsame₁ : app₁.store = app.store) _
  have hkept : (f app₁).store = app₁.store := hf app₁
  refine ⟨fun (hsettled : app₁.store.Settled) => ?_, fun app₂ hsame₂ => h app₂ ?_⟩
  · change (f app₁).store.Settled
    rwa [hkept]
  · exact Eq.trans hsame₂ (hkept.trans hsame₁)

/-- A transaction is saved where that keeps the repositories settled. -/
theorem saveTransaction_bind {β : Type} {post : β → App → Prop} {tx : Transaction}
    {k : Unit → Call β} (hkeeps : Store.Settled
      { app.store with transactions := app.store.transactions.store tx })
    (h : ∀ app₂ : App, app₂.store =
        { app.store with transactions := app.store.transactions.store tx } →
      (k ()).Sound settling post app₂) :
    (Call.saveTransaction tx >>= k).Sound settling post app := by
  apply Process.Sound.bind
  apply Process.Sound.perform
  intro app₁ outside (hsame₁ : app₁.store = app.store) _
  refine ⟨fun _ => ?_, fun app₂ hsame₂ => h app₂ ?_⟩
  · change Store.Settled { app₁.store with transactions := app₁.store.transactions.store tx }
    rw [hsame₁]
    exact hkeeps
  · rw [← hsame₁]
    exact hsame₂

/-- The submitted transaction in place of the one that was signed. -/
theorem Settled.submitted {store : Store} {tx : Transaction} {hash : String} {now : Date}
    {tx' : Transaction} (h : store.Settled) (hmem : tx ∈ store.transactions.rows)
    (hrecovers : tx.Recovers walletID) (hsigning : tx.status = .signing)
    (hproceed : Transaction.proceed
      { tx with transactionHash := some hash, updatedDate := some now } now = .ok tx') :
    Store.Settled { store with transactions := store.transactions.store tx' } ∧
      Store.AllSubmitted { store with transactions := store.transactions.store tx' } walletID := by
  have htx' : tx' = { tx with
      transactionHash := some hash, status := .pending
      submittedDate := some now, updatedDate := some now } := by
    simpa [Transaction.proceed, hsigning] using hproceed.symm
  have hsubmitted : tx'.status.isSubmitted = true := by rw [htx']; rfl
  have hsettled : Store.Settled { store with transactions := store.transactions.store tx' } := by
    apply h.updateTransaction hmem _ _ _ hsubmitted <;> rw [htx']
  refine ⟨hsettled, ?_⟩
  have hrow : Transactions.persisted tx' ∈ (store.transactions.store tx').rows :=
    Table.mem_rows_save.mpr (.inl rfl)
  have hrecovers' : (Transactions.persisted tx').Recovers walletID := by
    rw [htx']
    exact hrecovers
  exact hsettled.allSubmitted hrow hrecovers' hsubmitted

theorem submit_settled (hsettled : app.store.Settled)
    (hsigning : ∀ tx, app.recoveryTransaction walletID = some tx → tx.status = .signing) :
    (submitRecoveryTransaction walletID).Sound settling (fun _ _ => True) app := by
  apply query_bind
  intro app₁ _ app₂ hsame₁ hsame₂
  cases hfind : app₁.store.wallets.find walletID with
  | none => exact fun _ _ => trivial
  | some wallet =>
      obtain ⟨-, rfl⟩ := Table.mem_of_find hfind
      apply findRecoveryTransaction_bind
      intro app₃ hsame₃
      apply lift_bind
      intro tx htx app₄ hsame₄
      have hfound : app.recoveryTransaction wallet.id = some tx := by
        rw [Trapping.unwrap_eq_ok_iff, App.recoveryTransaction, hsame₂] at htx
        exact htx
      obtain ⟨hmem, hrecovers⟩ := recoveryTransaction_spec hfound
      apply query_bind
      intro app₅ outside app₆ _ hsame₆
      cases outside.submitTransaction tx with
      | none => exact fun _ _ => trivial
      | some hash =>
          apply query_bind
          intro app₇ clock app₈ _ hsame₈
          apply lift_bind
          intro tx' hproceed app₉ hsame₉
          have hstore : app₉.store = app.store := by
            rw [hsame₉, hsame₈, hsame₆, hsame₄, hsame₃, hsame₂]
          rw [← hstore] at hsettled hmem
          obtain ⟨hsettled', hsubmitted⟩ :=
            Settled.submitted hsettled hmem hrecovers (hsigning tx hfound) hproceed
          apply saveTransaction_bind hsettled'
          intro app₁₀ hsame₁₀
          rw [← hsame₁₀] at hsubmitted
          apply update_bind
          · exact fun _ => rfl
          intro app₁₁ hsame₁₁
          rw [← hsame₁₁] at hsubmitted
          apply Process.Sound.bind
          apply (proceed_settled hsubmitted).mono
          rintro wallet' app₁₂ ⟨hid, hsubmitted₁₂⟩
          apply Process.Sound.bind
          apply saveWallet_sound
          · intro _
            rwa [hid]
          · intro app₁₃ _
            exact (Steady.subscribeForTransactionProcessing wallet.id).sound app₁₃

theorem resume_settled (hsettled : app.store.Settled) :
    (resume services walletID).Sound settling (fun _ _ => True) app := by
  apply query_bind
  intro app₁ _ app₂ hsame₁ hsame₂
  cases hfind : app₁.store.wallets.find walletID with
  | none => exact fun _ _ => trivial
  | some wallet =>
      apply findRecoveryTransaction_bind
      intro app₃ hsame₃
      have hstore : app₃.store = app.store := hsame₃.trans hsame₂
      rw [← hstore] at hsettled
      have hfound : app₂.recoveryTransaction walletID = app₃.recoveryTransaction walletID := by
        rw [App.recoveryTransaction, App.recoveryTransaction, hsame₃]
      rw [hfound]
      cases htx : app₃.recoveryTransaction walletID with
      | none => exact fun _ _ => trivial
      | some tx =>
          have hsubmitted : tx.status.isSubmitted = true → app₃.store.AllSubmitted walletID :=
            allSubmitted_of_recoveryTransaction hsettled htx
          simp only
          split
          · rename_i call hcall
            rcases continuation_cases hcall with ⟨rfl, -, -, hsigning⟩ | ⟨rfl, -, hstatus⟩ |
              ⟨rfl, -⟩ | ⟨rfl, -⟩
            · apply submit_settled hsettled
              intro tx' htx'
              cases htx.symm.trans htx'
              exact hsigning
            · rw [hstatus] at hsubmitted
              exact postProcessing_settled (hsubmitted rfl)
            · exact (Steady.subscribeForTransactionProcessing walletID).sound app₃
            · exact handling_settled hsubmitted
          · trivial

theorem transactionStatusUpdated_settled (hsettled : app.store.Settled) :
    (transactionStatusUpdated services walletID).Sound settling (fun _ _ => True) app := by
  apply findRecoveryTransaction_bind
  intro app₁ hsame₁
  cases htx : app.recoveryTransaction walletID with
  | none =>
      have hunsubscribe : Steady
          (Process.update .elsewhere fun app => app.enqueue .unsubscribe) :=
        Steady.update fun _ => rfl
      exact hunsubscribe.sound app₁
  | some tx =>
      have hsubmitted : tx.status.isSubmitted = true → app.store.AllSubmitted walletID :=
        allSubmitted_of_recoveryTransaction hsettled htx
      simp only
      split
      · exact fun _ _ => trivial
      · apply update_bind
        · exact fun _ => rfl
        intro app₂ hsame₂
        rw [← hsame₁, ← hsame₂] at hsubmitted
        exact handling_settled hsubmitted

/-! ## Preparing -/

/-- The recovery transaction made before is the only one, so that none is left. -/
theorem removeOldTransaction_settled (hsettled : app.store.Settled) :
    (removeOldTransaction walletID).Sound settling (fun _ app' => app'.store.Settled ∧
      app'.store.wallets = app.store.wallets ∧
      ∀ tx ∈ app'.store.transactions.rows, ¬ tx.Recovers walletID) app := by
  apply findRecoveryTransaction_bind
  intro app₁ hsame₁
  cases htx : app.recoveryTransaction walletID with
  | none =>
      intro app₂ (hsame₂ : app₂.store = app₁.store)
      rw [hsame₂, hsame₁]
      refine ⟨hsettled, rfl, fun tx hmem hrecovers => ?_⟩
      have hnone := List.find?_eq_none.mp htx tx hmem
      simp only [Bool.decide_and, Bool.and_eq_true, decide_eq_true_eq, not_and] at hnone
      exact hnone hrecovers.1 hrecovers.2
  | some old =>
      obtain ⟨hmem, hrecovers⟩ := recoveryTransaction_spec htx
      apply Process.Sound.perform
      intro app₂ outside (hsame₂ : app₂.store = app₁.store) _
      refine ⟨fun h => h.of_subset (fun _ hw => hw) fun _ ht => (Table.mem_rows_remove.mp ht).1,
        fun app₃ hsame₃ => ?_⟩
      have hstore : app₃.store = { app.store with
          transactions := app.store.transactions.remove old.id } := by
        rw [← hsame₁, ← hsame₂]
        exact hsame₃
      rw [hstore]
      refine ⟨hsettled.of_subset (fun _ hw => hw) fun _ ht => (Table.mem_rows_remove.mp ht).1,
        rfl, fun tx hleft hrecovers' => ?_⟩
      obtain ⟨hmem', hne⟩ := Table.mem_rows_remove.mp hleft
      exact hne (hsettled.unique tx hmem' old hmem walletID hrecovers' hrecovers)

theorem prepareTransaction_settled {draft : Wallet} {build : Outside → Option (Built draft)}
    (hsettled : app.store.Settled) (hdraft : draft.state = .recoveryDraft) :
    (prepareTransaction draft build).Sound settling (fun _ _ => True) app := by
  apply Process.Sound.bind
  apply (removeOldTransaction_settled hsettled).mono
  rintro _ app₁ ⟨hsettled₁, -, hnone⟩
  apply query_bind
  intro app₂ outside app₃ _ hsame₃
  cases build outside with
  | none => exact fun _ _ => trivial
  | some built =>
      apply query_bind
      intro app₄ _ app₅ _ hsame₅
      split
      · exact fun _ _ => trivial
      · have hinactive : built.wallet.state.isRecoveryInProgress = false := by
          rw [built.same_state, hdraft]
          rfl
        have hstore : app₅.store = app₁.store := hsame₅.trans hsame₃
        apply Process.Sound.bind
        apply saveWallet_sound
        · intro hactive
          rw [hinactive] at hactive
          cases hactive
        intro app₆ hsame₆
        rw [hstore] at hsame₆
        have hsettled₆ : app₆.store.Settled := by
          rw [hsame₆]
          apply hsettled₁.saveWallet
          intro hactive
          rw [hinactive] at hactive
          cases hactive
        have hrecovers : built.tx.Recovers draft.id := ⟨built.type, built.walletID⟩
        apply saveTransaction_bind
        · apply hsettled₆.saveTransaction hrecovers
          · intro tx htx hrecovers'
            rw [hsame₆] at htx
            exact absurd hrecovers' (hnone tx htx)
          · -- The only wallet with this identifier is the draft that was just saved.
            refine .inr fun wallet hmem hid => ?_
            rw [hsame₆] at hmem
            rcases Table.mem_rows_save.mp hmem with rfl | ⟨-, hne⟩
            · exact hinactive
            · exact absurd (hid.trans built.same_id.symm) hne
        · intro app₇ _
          exact (Steady.publish _).sound app₇

/-! ## Updating what is pending -/

/-- A row of the transaction is stored, whatever its other fields are. -/
def Knows (app : App) (tx : Transaction) : Prop :=
  ∃ row ∈ app.store.transactions.rows,
    row.id = tx.id ∧ row.type = tx.type ∧ row.accountID = tx.accountID

theorem Knows.of_store {app' : App} {tx : Transaction} (h : Knows app tx)
    (hstore : app'.store = app.store) : Knows app' tx := by
  unfold Knows
  rw [hstore]
  exact h

/-- A transaction in place of a stored one leaves the others known. -/
theorem Knows.save {app' : App} {tx saved : Transaction} (h : Knows app tx)
    (hsaved : Knows app saved)
    (hstore : app'.store = { app.store with
      transactions := app.store.transactions.store saved }) : Knows app' tx := by
  obtain ⟨row, hmem, hid, htype, haccount⟩ := h
  obtain ⟨old, hold, holdID, holdType, holdAccount⟩ := hsaved
  unfold Knows
  rw [hstore]
  by_cases hsame : row.id = saved.id
  · have heq : old = row := by
      have hfound := Table.find_of_mem hold
      rw [holdID, ← hsame, Table.find_of_mem hmem] at hfound
      exact (Option.some.inj hfound).symm
    refine ⟨Transactions.persisted saved, Table.mem_rows_save.mpr (.inl rfl), ?_, ?_, ?_⟩
    · exact hsame.symm.trans hid
    · exact holdType.symm.trans (heq ▸ htype)
    · exact holdAccount.symm.trans (heq ▸ haccount)
  · exact ⟨row, Table.mem_rows_save.mpr (.inr ⟨hmem, hsame⟩), hid, htype, haccount⟩

/-- Settled repositories in which some transactions are known. -/
structure Keeps (txs : List Transaction) (app : App) : Prop where
  settled : app.store.Settled
  knows : ∀ tx ∈ txs, Knows app tx

section Updating

variable {txs : List Transaction}

theorem Keeps.of_store {app' : App} (h : Keeps txs app) (hstore : app'.store = app.store) :
    Keeps txs app' :=
  ⟨hstore ▸ h.settled, fun tx htx => (h.knows tx htx).of_store hstore⟩

/-- A known transaction is saved with another status. -/
theorem saveUpdated_bind {β : Type} {post : β → App → Prop} {saved : Transaction}
    {k : Unit → Call β} (hkeeps : Keeps txs app) (hsaved : Knows app saved)
    (hsubmitted : saved.status.isSubmitted = true)
    (h : ∀ app₂, Keeps txs app₂ → Knows app₂ saved → (k ()).Sound settling post app₂) :
    (Call.saveTransaction saved >>= k).Sound settling post app := by
  have hsettled : Store.Settled
      { app.store with transactions := app.store.transactions.store saved } := by
    obtain ⟨row, hmem, hid, htype, haccount⟩ := hsaved
    exact hkeeps.settled.updateTransaction hmem hid.symm htype.symm haccount.symm hsubmitted
  apply saveTransaction_bind hsettled
  intro app₂ hstore
  refine h app₂ ⟨?_, fun tx htx => (hkeeps.knows tx htx).save hsaved hstore⟩
    (hsaved.save hsaved hstore)
  rw [hstore]
  exact hsettled

/-- A processed transaction was pending, and is the same otherwise. -/
theorem processed_spec {tx tx' : Transaction} {now : Date} {success : Bool}
    (h : (if success then tx.succeed now else tx.fail now) = .ok tx') :
    tx'.status.isSubmitted = true ∧ tx'.id = tx.id ∧ tx'.type = tx.type ∧
      tx'.accountID = tx.accountID := by
  cases success with
  | true =>
      simp only [if_true, Transaction.succeed] at h
      split at h
      · cases h
        exact ⟨rfl, rfl, rfl, rfl⟩
      · cases h
  | false =>
      simp only [Bool.false_eq_true, if_false, Transaction.fail] at h
      split at h
      · cases h
        exact ⟨rfl, rfl, rfl, rfl⟩
      · cases h

theorem updatePending_settled {tx : Transaction} (hkeeps : Keeps txs app) (htx : tx ∈ txs) :
    (TransactionDomainService.updatePending tx).Sound settling (fun _ app' => Keeps txs app')
      app := by
  have hend {result : Option Bool} {app' : App} (hstore : app'.store = app.store) :
      (Process.pure result : Call (Option Bool)).Sound settling (fun _ app' => Keeps txs app')
        app' :=
    fun app'' hsame => hkeeps.of_store (Eq.trans hsame hstore)
  unfold TransactionDomainService.updatePending
  split
  · exact hend rfl
  · rename_i hash _
    apply query_bind
    intro _ receipt app₁ _ hsame₁
    split
    · exact hend hsame₁
    · exact hend hsame₁
    · apply query_bind
      intro _ clock app₂ _ hsame₂
      apply lift_bind
      intro tx' hprocessed app₃ hsame₃
      obtain ⟨hsubmitted, hid, htype, haccount⟩ := processed_spec hprocessed
      apply query_bind
      intro _ block app₄ _ hsame₄
      have hstore : app₄.store = app.store := by rw [hsame₄, hsame₃, hsame₂, hsame₁]
      have hkeeps₄ : Keeps txs app₄ := hkeeps.of_store hstore
      obtain ⟨row, hmem, hrowID, hrowType, hrowAccount⟩ := hkeeps₄.knows tx htx
      have hknows : Knows app₄ tx' := ⟨row, hmem, hrowID.trans hid.symm, hrowType.trans htype.symm,
        hrowAccount.trans haccount.symm⟩
      split
      · exact fun app₅ hsame₅ => hkeeps₄.of_store hsame₅
      · apply saveUpdated_bind hkeeps₄ hknows hsubmitted
        exact fun app₅ hkeeps₅ _ app₆ hsame₆ => hkeeps₅.of_store hsame₆
      · rename_i timestamp _
        have hstamped : Knows app₄ { tx' with
            processedDate := some timestamp, updatedDate := some clock.now } := hknows
        apply saveUpdated_bind hkeeps₄ hstamped hsubmitted
        intro app₅ hkeeps₅ hknows₅
        apply saveUpdated_bind hkeeps₅ hknows₅ hsubmitted
        exact fun app₆ hkeeps₆ _ app₇ hsame₇ => hkeeps₆.of_store hsame₇

theorem updateAll_settled {rest : List Transaction} {hasUpdates : Bool} (hkeeps : Keeps txs app)
    (hrest : ∀ tx ∈ rest, tx ∈ txs) :
    (TransactionDomainService.updateAll rest hasUpdates).Sound settling (fun _ _ => True) app := by
  induction rest generalizing app hasUpdates with
  | nil =>
      cases hasUpdates with
      | false => exact fun _ _ => trivial
      | true => exact (Steady.publish .transactionStatusUpdated).sound app
  | cons tx rest ih =>
      apply Process.Sound.bind
      apply (updatePending_settled hkeeps (hrest tx List.mem_cons_self)).mono
      intro saved app₁ hkeeps₁
      cases saved with
      | none => exact fun _ _ => trivial
      | some saved => exact ih hkeeps₁ fun tx htx => hrest tx (List.mem_cons_of_mem _ htx)

theorem updatePendingTransactions_settled (hsettled : app.store.Settled) :
    TransactionDomainService.updatePendingTransactions.Sound settling (fun _ _ => True) app := by
  apply query_bind
  intro app₁ _ app₂ hsame₁ hsame₂
  have hkeeps :
      Keeps (app₁.store.transactions.rows.filter fun tx => tx.status = .pending) app₂ := by
    refine ⟨hsame₂ ▸ hsettled, fun tx htx => ⟨tx, ?_, rfl, rfl, rfl⟩⟩
    rw [hsame₂, ← hsame₁]
    exact (List.mem_filter.mp htx).1
  exact updateAll_settled hkeeps fun _ htx => htx

end Updating

/-! ## Runs -/

/-- In runs whose calls do not overlap, also such that are cut by crashes, the repositories
stay settled. -/
theorem settled_of_runs {config : System.Config App Outside Place} {store : Store}
    (hstore : store.Settled)
    (hruns : (system services).Runs (fun _ _ => True) System.Config.Idle ⟨.ofStore store, []⟩
      config) : config.state.store.Settled := by
  have hstarts : ∀ app call app', (system services).starts app call app' → app.store.Settled →
      app'.store.Settled ∧ call.Sound settling (fun _ _ => True) app' := by
    intro app call app' hstart hsettled
    cases hstart with
    | job hmem =>
        rename_i job
        refine ⟨hsettled, ?_⟩
        cases job with
        | resumeRecovery walletID => exact resume_settled hsettled
        | transactionStatusUpdated walletID => exact transactionStatusUpdated_settled hsettled
        | cleanUpStaleTransactions => exact Steady.cleanUpStaleTransactions.sound _
    | resumeRecovery => exact ⟨hsettled, resume_settled hsettled⟩
    | createRecoverDraftWallet account =>
        exact ⟨hsettled, (Steady.createRecoverDraftWallet services account).sound _⟩
    | editDraft _ _ hdraft _ hstate =>
        refine ⟨hsettled, (Steady.saveWallet ?_).sound _⟩
        rw [hstate, hdraft]
        rfl
    | prepareTransaction build _ _ hdraft =>
        exact ⟨hsettled, prepareTransaction_settled hsettled hdraft⟩
    | cancelRecovery walletID => exact ⟨hsettled, (Steady.removeWallet walletID).sound _⟩
    | cleanUpDrafts => exact ⟨hsettled, Steady.cleanUpDrafts.sound _⟩
    | updatePendingTransactions =>
        exact ⟨hsettled, updatePendingTransactions_settled hsettled⟩
  have hmoves : ∀ app app', Delivers app app' → app'.store = app.store := by
    rintro app app' ⟨publisher, jobs, -, rfl⟩
    rfl
  have hstable : ∀ app app' : App, app'.store = app.store → app.store.Settled →
      app'.store.Settled := fun app app' hsame hsettled => hsame ▸ hsettled
  exact @System.Runs.sequential_invariant _ _ _ (system services) settling
    (fun app => app.store.Settled) (fun _ _ h => h) hstable hstarts hmoves (fun _ h => h)
    (fun app _ => Steady.appDidFinishLaunching.sound app.restart) _ _ hruns hstore
    fun call hmem => by cases hmem

/-- How a recovery goes on from what its wallet and its transaction are. A signed transaction is
submitted, a pending one is waited for, and what became of it is dealt with; a wallet that has
got as far as post-processing is compared with the contract, if its transaction succeeded. -/
inductive Continues (services : Services) (wallet : Wallet) (tx : Transaction)
    (walletID : WalletID) : Call Unit → Prop
  | submit (hready : wallet.state.isReadyToUse = false)
      (hactive : wallet.state.isRecoveryInProgress = false) (hstatus : tx.status = .signing) :
      Continues services wallet tx walletID (submitRecoveryTransaction walletID)
  | wait (hstate : wallet.state = .recoveryInProgress) (hstatus : tx.status = .pending) :
      Continues services wallet tx walletID (subscribeForTransactionProcessing walletID)
  | succeed (hstate : wallet.state = .recoveryInProgress) (hstatus : tx.status = .success) :
      Continues services wallet tx walletID (handleTransactionProgress services tx walletID)
  | fail (hstate : wallet.state = .recoveryInProgress) (hstatus : tx.status = .failed) :
      Continues services wallet tx walletID (handleTransactionProgress services tx walletID)
  | postProcess (hstate : wallet.state = .recoveryPostProcessing)
      (hstatus : tx.status = .success) :
      Continues services wallet tx walletID (postProcessing services walletID)

/-- The pairs from which a recovery goes on: a draft with a signed transaction, a recovery in
progress with a submitted one, and post-processing after a success. -/
def Covered (wallet : Wallet) (tx : Transaction) : Prop :=
  wallet.state.isReadyToUse = false ∧ wallet.state.isRecoveryInProgress = false ∧
      tx.status = .signing ∨
    wallet.state = .recoveryInProgress ∧ tx.status.isSubmitted = true ∨
    wallet.state = .recoveryPostProcessing ∧ tx.status = .success

/-- Asked to resume the recovery of a wallet, the service has read the wallet and its recovery
transaction and changed nothing, and it has returned or goes on with the call that continues
the recovery. -/
def Resumable (services : Services) (walletID : WalletID) (app : App) : Prop :=
  ∀ outside, ∃ call app', (resume services walletID).advance outside 2 app = (call, app') ∧
    app'.store = app.store ∧ (call = .pure () ∨ ∃ wallet tx,
      app.store.wallets.find walletID = some wallet ∧
      app.recoveryTransaction walletID = some tx ∧
      Continues services wallet tx walletID call)

/-- What `resume` does after its two reads. -/
theorem advance_resume (outside : Outside) (app : App) :
    (∃ app', (resume services walletID).advance outside 2 app = (.pure (), app') ∧
      app'.store = app.store ∧ (app.store.wallets.find walletID = none ∨
        app.recoveryTransaction walletID = none)) ∨
    ∃ wallet tx app', app.store.wallets.find walletID = some wallet ∧
      app.recoveryTransaction walletID = some tx ∧ app'.store = app.store ∧
      (resume services walletID).advance outside 2 app =
        ((continuation services wallet tx walletID).getD (.trap .precondition), app') := by
  cases hwallet : app.store.wallets.find walletID with
  | none =>
      refine .inl ⟨app, ?_, rfl, .inl rfl⟩
      simp [resume, Call.findWallet, Process.query, Process.perform, Process.advance, hwallet]
  | some wallet =>
      cases htx : app.recoveryTransaction walletID with
      | none =>
          refine .inl ⟨app, ?_, rfl, .inr rfl⟩
          simp [resume, Call.findWallet, Call.findRecoveryTransaction, Process.query,
            Process.perform, Process.advance, hwallet, htx]
      | some tx =>
          refine .inr ⟨wallet, tx, app.observe (.transaction walletID tx.status), rfl, rfl, rfl, ?_⟩
          cases hcall : continuation services wallet tx walletID with
          | none =>
              simp [resume, Call.findWallet, Call.findRecoveryTransaction, Process.query,
                Process.perform, Process.advance, hwallet, htx, hcall]
          | some call =>
              simp [resume, Call.findWallet, Call.findRecoveryTransaction, Process.query,
                Process.perform, Process.advance, hwallet, htx, hcall]

theorem advance_resume_of_some {tx : Transaction} (outside : Outside)
    (hwallet : app.store.wallets.find walletID = some wallet)
    (htx : app.recoveryTransaction walletID = some tx) :
    ∃ app', (resume services walletID).advance outside 2 app =
      ((continuation services wallet tx walletID).getD (.trap .precondition), app') := by
  rcases @advance_resume services walletID outside app with
    ⟨_, -, -, hwallet' | htx'⟩ | ⟨wallet', tx', app', hwallet', htx', -, hadvance⟩
  · cases hwallet.symm.trans hwallet'
  · cases htx.symm.trans htx'
  · cases hwallet.symm.trans hwallet'
    cases htx.symm.trans htx'
    exact ⟨app', hadvance⟩

theorem exists_continues_iff {tx : Transaction} :
    (∃ call, Continues services wallet tx walletID call) ↔ Covered wallet tx := by
  constructor
  · rintro ⟨call, hcontinues⟩
    cases hcontinues with
    | submit hready hactive hstatus => exact .inl ⟨hready, hactive, hstatus⟩
    | wait hstate hstatus | succeed hstate hstatus | fail hstate hstatus =>
        exact .inr (.inl ⟨hstate, by rw [hstatus]; rfl⟩)
    | postProcess hstate hstatus => exact .inr (.inr ⟨hstate, hstatus⟩)
  · rintro (⟨hready, hactive, hstatus⟩ | ⟨hstate, hsubmitted⟩ | ⟨hstate, hstatus⟩)
    · exact ⟨_, .submit hready hactive hstatus⟩
    · cases hstatus : tx.status with
      | pending => exact ⟨_, .wait hstate hstatus⟩
      | success => exact ⟨_, .succeed hstate hstatus⟩
      | failed => exact ⟨_, .fail hstate hstatus⟩
      | draft | signing | rejected =>
          rw [hstatus] at hsubmitted
          cases hsubmitted
    · exact ⟨_, .postProcess hstate hstatus⟩

/-- The program finds the call that continues. -/
theorem Continues.continuation_eq {tx : Transaction} {call : Call Unit}
    (h : Continues services wallet tx walletID call) :
    continuation services wallet tx walletID = some call := by
  cases h with
  | submit hready hactive hstatus => simp [continuation, hready, hactive, hstatus]
  | wait hstate hstatus | succeed hstate hstatus | fail hstate hstatus
  | postProcess hstate hstatus =>
      simp [continuation, hstate, hstatus, WalletState.isReadyToUse,
        WalletState.isRecoveryInProgress, WalletState.isFinalizingRecovery]

/-- What the program finds is not to return. -/
theorem continuation_ne_pure (tx : Transaction) :
    (continuation services wallet tx walletID).getD (.trap .precondition) ≠ .pure () := by
  cases hcall : continuation services wallet tx walletID with
  | none => exact fun h => by cases h
  | some call =>
      rcases continuation_cases hcall with ⟨rfl, -⟩ | ⟨rfl, -⟩ | ⟨rfl, -⟩ | ⟨rfl, -⟩
      all_goals exact fun h => by cases h

/-- In any state, `resume` continues or returns exactly if the pair of the wallet and the
transaction that it finds is one from which a recovery goes on. -/
theorem resumable_iff : Resumable services walletID app ↔ ∀ wallet tx,
    app.store.wallets.find walletID = some wallet → app.recoveryTransaction walletID = some tx →
      Covered wallet tx := by
  constructor
  · intro h wallet tx hwallet htx
    obtain ⟨call, app', hadvance, -, hcall⟩ := h offline
    rcases hcall with rfl | ⟨wallet', tx', hwallet', htx', hcontinues⟩
    · obtain ⟨_, hadvance'⟩ :=
        @advance_resume_of_some services app walletID wallet tx offline hwallet htx
      rw [hadvance'] at hadvance
      exact absurd (congrArg Prod.fst hadvance) (continuation_ne_pure tx)
    · cases hwallet.symm.trans hwallet'
      cases htx.symm.trans htx'
      exact exists_continues_iff.mp ⟨call, hcontinues⟩
  · intro h outside
    rcases @advance_resume services walletID outside app with
      ⟨app', hadvance, hsame, -⟩ | ⟨wallet, tx, app', hwallet, htx, hsame, hadvance⟩
    · exact ⟨_, app', hadvance, hsame, .inl rfl⟩
    · obtain ⟨call, hcontinues⟩ :=
        (@exists_continues_iff services walletID wallet tx).mpr (h wallet tx hwallet htx)
      rw [hcontinues.continuation_eq] at hadvance
      exact ⟨call, app', hadvance, hsame, .inr ⟨wallet, tx, hwallet, htx, hcontinues⟩⟩

/-- In every state that calls without overlap and crashes lead to, a recovery in progress has
a submitted transaction. -/
theorem isSubmitted_of_runs {store : Store} (hstore : store.Settled)
    {config : System.Config App Outside Place}
    (hruns : (system services).Runs (fun _ _ => True) System.Config.Idle ⟨.ofStore store, []⟩
      config) {tx : Transaction} (hwallet : config.state.store.wallets.find walletID = some wallet)
    (htx : config.state.recoveryTransaction walletID = some tx)
    (hactive : wallet.state.isRecoveryInProgress = true) : tx.status.isSubmitted = true := by
  obtain ⟨hmem, hid⟩ := Table.mem_of_find hwallet
  obtain ⟨htx, hrecovers⟩ := recoveryTransaction_spec htx
  exact (settled_of_runs hstore hruns).submitted wallet hmem hactive tx htx (hid.symm ▸ hrecovers)

/-- In any state, `resume` continues or returns exactly if it finds a covered pair. In every
state that calls without overlap and crashes lead to, a recovery in progress has a submitted
transaction, so that this comes to the wallet being in progress, or in post-processing after a
success, or a draft whose transaction waits for the submission. -/
theorem resumable_iff_of_runs {store : Store} (hstore : store.Settled) (walletID : WalletID) :
    (∀ app, Resumable services walletID app ↔ ∀ wallet tx,
      app.store.wallets.find walletID = some wallet →
      app.recoveryTransaction walletID = some tx → Covered wallet tx) ∧
    ∀ config : System.Config App Outside Place,
      (system services).Runs (fun _ _ => True) System.Config.Idle ⟨.ofStore store, []⟩ config →
      (Resumable services walletID config.state ↔ ∀ wallet tx,
        config.state.store.wallets.find walletID = some wallet →
        config.state.recoveryTransaction walletID = some tx →
        wallet.state = .recoveryInProgress ∨
          wallet.state = .recoveryPostProcessing ∧ tx.status = .success ∨
          wallet.state.isReadyToUse = false ∧ tx.status = .signing) := by
  refine ⟨fun app => resumable_iff, fun config hruns => resumable_iff.trans ?_⟩
  refine forall_congr' fun wallet => forall_congr' fun tx => ?_
  refine imp_congr_right fun hwallet => imp_congr_right fun htx => ?_
  cases hactive : wallet.state.isRecoveryInProgress with
  | true =>
      have hsubmitted := isSubmitted_of_runs hstore hruns hwallet htx hactive
      have hsigning : tx.status ≠ .signing := by
        intro hsigning
        rw [hsigning] at hsubmitted
        cases hsubmitted
      simp [Covered, hactive, hsubmitted, hsigning]
  | false =>
      have hprogress : wallet.state ≠ .recoveryInProgress := by
        intro h
        rw [h] at hactive
        cases hactive
      have hfinal : wallet.state ≠ .recoveryPostProcessing := by
        intro h
        rw [h] at hactive
        cases hactive
      simp [Covered, hactive, hprogress, hfinal]

/-- A crash can leave post-processing behind a transaction that has failed, between two saves of
the wallet. Resumed, this recovery is declared a success. -/
theorem failed_declared {tx : Transaction} (outside : Outside)
    (hwallet : app.store.wallets.find walletID = some wallet)
    (hstate : wallet.state = .recoveryPostProcessing)
    (htx : app.recoveryTransaction walletID = some tx) (hstatus : tx.status = .failed) :
    ((resume services walletID).advance outside 5 app).2.store.wallets.find walletID =
        some { wallet with state := .readyToUse } ∧
      .published .walletRecovered ∈ ((resume services walletID).advance outside 5 app).2.log := by
  have hcall : continuation services wallet tx walletID =
      some (handleTransactionProgress services tx walletID) := by
    simp [continuation, hstate, hstatus, WalletState.isReadyToUse,
      WalletState.isRecoveryInProgress, WalletState.isFinalizingRecovery]
  have hid : wallet.id = walletID := (Table.mem_of_find hwallet).2
  simp [resume, handleTransactionProgress, Wallet.proceed, Wallet.enter, Call.publish,
    Call.findWallet, Call.findRecoveryTransaction, Process.query, Process.perform, Process.update,
    Process.advance, App.saveWallet, App.modify, hwallet, htx, hcall, hstate, hstatus, hid]

/-! ## A recovery that is resumed twice -/

section Example

open RecoveryTransactionBuilder SafeWallet.System

theorem submittedStore_settled : submittedStore.Settled := by
  have hrows : ∀ tx ∈ submittedStore.transactions.rows, tx = pendingRecovery :=
    fun tx htx => List.mem_singleton.mp htx
  constructor
  · intro wallet _ _ tx htx _
    rw [hrows tx htx]
    rfl
  · intro tx htx tx' htx' _ _ _
    rw [hrows tx htx, hrows tx' htx']

/-- A recovery whose transaction is submitted goes on after a launch. -/
theorem launched_resumable : Resumable offlineServices "wallet" launchedApp := by
  refine ((resumable_iff_of_runs submittedStore_settled "wallet").2 _
    (Runs.mono_guard (fun _ _ _ => trivial) runs_launched)).mpr ?_
  intro wallet tx hwallet _
  have hfound : launchedApp.store.wallets.find "wallet" = some submittedWallet := by decide +kernel
  cases hfound.symm.trans hwallet
  exact .inl rfl

/-- The screen that waits for the recovery resumes it when the launch has completed it already,
and the program stops. -/
theorem completed_not_resumable :
    ∃ running, (system offlineServices).Runs (fun _ _ => True) Config.Idle
        ⟨.ofStore submittedStore, []⟩ ⟨completedApp, running⟩ ∧
      Config.Idle ⟨completedApp, running⟩ ∧
      Starts offlineServices completedApp (resume offlineServices "wallet") completedApp ∧
      ((resume offlineServices "wallet").advance offline 2 completedApp).1 = .trap .precondition ∧
      ¬ Resumable offlineServices "wallet" completedApp := by
  have hselected : completedApp.selectedWallet =
      some { submittedWallet with state := .readyToUse } := by decide +kernel
  have hfound : completedApp.store.wallets.find "wallet" =
      some { submittedWallet with state := .readyToUse } := by decide +kernel
  have htx : completedApp.recoveryTransaction "wallet" = some minedRecovery := by decide +kernel
  have hstops : continuation offlineServices { submittedWallet with state := .readyToUse }
      minedRecovery "wallet" = none := rfl
  obtain ⟨app', hadvance⟩ : ∃ app', (resume offlineServices "wallet").advance offline 2
      completedApp = (.trap .precondition, app') := advance_resume_of_some offline hfound htx
  refine ⟨[.pure (), .pure ()], Runs.mono_guard (fun _ _ _ => trivial) runs_completed, ?_,
    Starts.resumeRecovery (by decide +kernel) hselected, ?_, fun h => ?_⟩
  · intro call hmem
    simpa using hmem
  · rw [hadvance]
  · rcases resumable_iff.mp h _ _ hfound htx with ⟨hready, -⟩ | ⟨hstate, -⟩ | ⟨hstate, -⟩
    · cases hready
    · cases hstate
    · cases hstate

end Example

end RecoveryDomainService

end SafeWallet
