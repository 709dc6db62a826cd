/-
# When a wallet is declared recovered

A wallet in recovery becomes ready to use at one place: after the owners and the
threshold of the contract were compared with the local ones, and that place is only
reached when the recovery transaction succeeded. But `proceed()` declares whatever
wallet it finds in the last recovery state, and two callers reach it with a wallet
they have just read: the handler of the transaction's progress and the submission.
Both assert that the wallet is in an earlier state, and nothing checks it.

Runs are arbitrary interleavings of all calls, with events in flight and crashes
after any action. In those whose two reads find what is asserted, every declaration
was checked; and there is a run in which one was not.
-/

import SafeWallet.Recovery.FailedCheck

namespace SafeWallet

/-- The states whose `proceed()` makes a wallet ready to use. -/
def WalletState.proceedsToReady (state : WalletState) : Bool :=
  state = .recoveryPostProcessing ∨ state = .finalizingDeployment

namespace RecoveryDomainService

/-! ## Justified declarations -/

/-- The program has seen the recovery transaction succeed, and answers of the
contract that agree with the wallet. -/
def Checked (log : List Observation) (wallet : Wallet) : Prop :=
  .transaction wallet.id .success ∈ log ∧
    ∃ remoteOwners remoteThreshold, .owners wallet.id (.ok (some remoteOwners)) ∈ log ∧
      .threshold wallet.id (.ok (some remoteThreshold)) ∈ log ∧
      sameOwners wallet remoteOwners = true ∧ wallet.confirmationCount = remoteThreshold

/-- An observation that is no declaration, or a declaration after the checks. -/
def Justified (earlier : List Observation) : Observation → Prop
  | .saved (some previous) wallet =>
    previous.isRecovery = true → wallet.state = .readyToUse → Checked earlier wallet
  | .published .walletRecovered => ∃ previous wallet, .saved previous wallet ∈ earlier ∧
      wallet.state = .readyToUse ∧ Checked earlier wallet
  | _ => True

/-- Every declaration in a record was justified when it was made. -/
def Proper : List Observation → Prop
  | [] => True
  | observation :: earlier => Justified earlier observation ∧ Proper earlier

/-- The wallet read at a place is one that the call may proceed with. -/
def Expected (app : App) : Place → Prop
  | .handling walletID => ∀ wallet, app.store.wallets.find walletID = some wallet →
      wallet.state.proceedsToReady = false
  | .submitting walletID => ∀ wallet, app.store.wallets.find walletID = some wallet →
      wallet.state.proceedsToReady = false ∧ wallet.state ≠ .readyToUse
  | _ => True

instance (app : App) : DecidablePred (Expected app)
  | .handling walletID =>
    inferInstanceAs (Decidable (∀ wallet ∈ app.store.wallets.find walletID,
      wallet.state.proceedsToReady = false))
  | .submitting walletID =>
    inferInstanceAs (Decidable (∀ wallet ∈ app.store.wallets.find walletID,
      wallet.state.proceedsToReady = false ∧ wallet.state ≠ .readyToUse))
  | .moving _ _ | .starting _ | .saving _ | .preparing _ | .depositing _ | .crediting _ _
  | .requestingCreation _ | .refreshing _ | .merging _ _ | .asking _ | .elsewhere =>
    isTrue trivial

variable {log log' : List Observation} {wallet : Wallet}

theorem Checked.mono (h : Checked log wallet) (hsuffix : log <:+ log') : Checked log' wallet := by
  obtain ⟨htx, remoteOwners, remoteThreshold, howners, hthreshold, hsame⟩ := h
  exact ⟨hsuffix.mem htx, remoteOwners, remoteThreshold, hsuffix.mem howners,
    hsuffix.mem hthreshold, hsame⟩

/-- The checks are about the known owners and the threshold only. -/
theorem Checked.of_same {wallet' : Wallet} (h : Checked log wallet) (hid : wallet'.id = wallet.id)
    (howners : RecoveryTransactionBuilder.localOwners wallet' =
      RecoveryTransactionBuilder.localOwners wallet)
    (hcount : wallet'.confirmationCount = wallet.confirmationCount) : Checked log wallet' := by
  unfold Checked sameOwners
  rw [hid, howners, hcount]
  exact h

/-! ## The discipline -/

/-- The record grows, and stays proper. -/
def Grows (app app' : App) : Prop := app.log <:+ app'.log ∧ (Proper app.log → Proper app'.log)

/-- All calls let the record grow and rely on nothing else. -/
def declaring : Discipline App Place where
  rely := Grows
  guarantee := Grows
  guard := Expected
  rely_refl _ := ⟨List.suffix_rfl, id⟩
  rely_trans h h' := ⟨h.1.trans h'.1, h'.2 ∘ h.2⟩

theorem Grows.of_log_eq {app app' : App} (h : app'.log = app.log) : Grows app app' := by
  rw [Grows, h]
  exact ⟨List.suffix_rfl, id⟩

theorem Grows.of_observed {app app' : App} {observation : Observation}
    (h : app'.log = observation :: app.log) (hjustified : Justified app.log observation) :
    Grows app app' := by
  rw [Grows, h]
  exact ⟨List.suffix_cons _ _, fun hproper => ⟨hjustified, hproper⟩⟩

/-! ## Calls that declare nothing -/

/-- An observation that is no declaration. -/
def Harmless : Observation → Prop
  | .saved _ wallet => wallet.state ≠ .readyToUse
  | .published event => event ≠ .walletRecovered
  | _ => True

theorem Harmless.justified {observation : Observation} (h : Harmless observation) :
    Justified log observation := by
  cases observation with
  | saved previous wallet =>
      cases previous with
      | none => trivial
      | some previous => exact fun _ hready => absurd hready h
  | published event => cases event <;> trivial
  | transaction | owners | threshold | begun | requestedCreation | balance | deposited | receipt
  | block | merged | postProcessed => trivial

/-- A call that makes only harmless observations, whatever happens around it. -/
def Quiet {α : Type} (post : α → Prop) : Call α → Prop
  | .pure a => post a
  | .trap _ => True
  | .act _ effect next => ∀ app outside,
      ((effect app outside).log = app.log ∨
        ∃ observation, Harmless observation ∧ (effect app outside).log = observation :: app.log) ∧
      Quiet post (next app outside)

namespace Quiet

variable {α β : Type} {post : α → Prop} {call : Call α}

theorem bind {post' : β → Prop} {k : α → Call β} (h : Quiet post call)
    (hk : ∀ a, post a → Quiet post' (k a)) : Quiet post' (call >>= k) := by
  induction call with
  | pure a => exact hk a h
  | trap reason => trivial
  | act label effect next ih =>
      intro app outside
      obtain ⟨hlog, hnext⟩ := h app outside
      exact ⟨hlog, ih app outside hnext⟩

theorem mono {post' : α → Prop} (h : Quiet post call) (himp : ∀ a, post a → post' a) :
    Quiet post' call := by
  induction call with
  | pure a => exact himp a h
  | trap reason => trivial
  | act label effect next ih =>
      intro app outside
      obtain ⟨hlog, hnext⟩ := h app outside
      exact ⟨hlog, ih app outside hnext⟩

theorem each {bs : List β} {f : β → Call Unit} (h : ∀ b ∈ bs, Quiet (fun _ => True) (f b)) :
    Quiet (fun _ => True) (Process.each bs f) := by
  induction bs with
  | nil => trivial
  | cons b rest ih =>
      apply bind (h b List.mem_cons_self)
      intro _ _
      exact ih fun b' hmem => h b' (List.mem_cons_of_mem b hmem)

/-- A quiet call is sound. -/
theorem sound (h : Quiet post call) (app : App) :
    call.Sound declaring (fun a app' => post a ∧ Grows app app') app := by
  suffices hsound : ∀ app₀, Grows app₀ app →
      call.Sound declaring (fun a app' => post a ∧ Grows app₀ app') app from
    hsound app (declaring.rely_refl app)
  intro app₀ hgrows
  induction call generalizing app with
  | pure a => exact fun app' hrely => ⟨h, declaring.rely_trans hgrows hrely⟩
  | trap reason => trivial
  | act label effect next ih =>
      intro app' outside hrely _
      obtain ⟨hlog, hnext⟩ := h app' outside
      have hstep : Grows app' (effect app' outside) := by
        rcases hlog with heq | ⟨observation, hharmless, heq⟩
        · exact .of_log_eq heq
        · exact .of_observed heq hharmless.justified
      refine ⟨hstep, ih app' outside hnext _ ?_⟩
      exact declaring.rely_trans (declaring.rely_trans hgrows hrely) hstep

/-- A quiet beginning of a sound call. -/
theorem bind_sound {post' : β → App → Prop} {k : α → Call β} {app : App} (h : Quiet post call)
    (hk : ∀ a app', post a → Grows app app' → (k a).Sound declaring post' app') :
    (call >>= k).Sound declaring post' app := by
  apply Process.Sound.bind
  apply (h.sound app).mono
  exact fun a app' ha => hk a app' ha.1 ha.2

section Actions

theorem perform {place : Place} {f : App → Outside → α × App}
    (hlog : ∀ app outside, (f app outside).2.log = app.log)
    (hpost : ∀ app outside, post (f app outside).1) : Quiet post (Process.perform place f) :=
  fun app outside => ⟨.inl (hlog app outside), hpost app outside⟩

theorem query {place : Place} {f : App → Outside → α} :
    Quiet (fun _ => True) (Process.query place f) := perform (fun _ _ => rfl) fun _ _ => trivial

theorem write (f : Store → Store) : Quiet (fun _ => True) (Call.write f) :=
  perform (fun _ _ => rfl) fun _ _ => trivial

theorem update {place : Place} {f : App → App} (hlog : ∀ app, (f app).log = app.log) :
    Quiet (fun _ => True) (Process.update place f) :=
  perform (fun app _ => hlog app) fun _ _ => trivial

theorem lift {value : Trapping α} (h : ∀ a, value = .ok a → post a) :
    Quiet post (Process.lift value) := by
  cases value with
  | error reason => trivial
  | ok a => exact h a rfl

theorem saveWallet {wallet : Wallet} (h : wallet.state ≠ .readyToUse) :
    Quiet (fun _ => True) (Call.saveWallet wallet) :=
  fun _ _ => ⟨.inr ⟨.saved _ wallet, h, rfl⟩, trivial⟩

theorem publish {event : DomainEvent} (h : event ≠ .walletRecovered) :
    Quiet (fun _ => True) (Call.publish event) :=
  fun _ _ => ⟨.inr ⟨.published event, h, rfl⟩, trivial⟩

theorem findRecoveryTransaction (walletID : WalletID) :
    Quiet (fun _ => True) (Call.findRecoveryTransaction walletID) := by
  intro app outside
  refine ⟨?_, trivial⟩
  cases htx : app.recoveryTransaction walletID with
  | none =>
      left
      simp [htx]
  | some tx =>
      right
      exact ⟨.transaction walletID tx.status, trivial, by simp [htx]⟩

end Actions

/-! ## Transitions and removal -/

theorem enter {state : WalletState} {event : Option DomainEvent} (hstate : state ≠ .readyToUse)
    (hevent : event ≠ some .walletRecovered) :
    Quiet (fun wallet' => wallet'.state ≠ .readyToUse) (wallet.enter state event) := by
  unfold Wallet.enter
  apply bind (saveWallet hstate)
  intro _ _
  cases event with
  | none => exact hstate
  | some event =>
      apply bind (publish fun heq => hevent (congrArg some heq))
      exact fun _ _ => hstate

/-- A wallet that would not become ready proceeds quietly. -/
theorem proceed (h : wallet.state.proceedsToReady = false) :
    Quiet (fun wallet' => wallet.state ≠ .readyToUse → wallet'.state ≠ .readyToUse)
      wallet.proceed := by
  have hmono : ∀ {call : Call Wallet}, Quiet (fun wallet' => wallet'.state ≠ .readyToUse) call →
      Quiet (fun wallet' => wallet.state ≠ .readyToUse → wallet'.state ≠ .readyToUse) call :=
    fun hcall => hcall.mono fun _ hready _ => hready
  unfold Wallet.proceed
  split <;> rename_i hstate
  · exact hmono (enter (by decide) (by simp))
  · exact hmono (enter (by decide) (by simp))
  · unfold Wallet.proceedWithFirstDeposit
    split
    · trivial
    · apply bind query
      intro account _
      cases account with
      | none => exact fun hready => hready
      | some account =>
          simp only
          split
          · exact hmono (enter (by decide) (by simp))
          · exact hmono (enter (by decide) (by simp))
  · exact hmono (enter (by decide) (by simp))
  · exact hmono (enter (by decide) (by simp))
  · simp [hstate, WalletState.proceedsToReady] at h
  · exact fun hready => hready
  · exact hmono (enter (by decide) (by simp))
  · exact hmono (enter (by decide) (by simp))
  · simp [hstate, WalletState.proceedsToReady] at h

/-- Cancelling is quiet. -/
theorem cancel : Quiet (fun _ => True) wallet.cancel := by
  have hmono : ∀ {call : Call Wallet}, Quiet (fun wallet' => wallet'.state ≠ .readyToUse) call →
      Quiet (fun _ => True) call := fun hcall => hcall.mono fun _ _ => trivial
  unfold Wallet.cancel
  split
  · trivial
  · trivial
  · trivial
  · exact hmono (enter (by decide) (by simp))
  · exact hmono (enter (by decide) (by simp))
  · exact hmono (enter (by decide) (by simp))
  · exact hmono (enter (by decide) (by simp))
  · apply bind (publish (by simp))
    exact fun _ _ => trivial
  · exact hmono (enter (by decide) (by simp))
  · exact hmono (enter (by decide) (by simp))

theorem removeAccounts (walletID : WalletID) :
    Quiet (fun _ => True) (WalletDomainService.removeAccounts walletID) :=
  bind query fun _ _ => each fun _ _ => write _

theorem removeTransactions (walletID : WalletID) :
    Quiet (fun _ => True) (WalletDomainService.removeTransactions walletID) :=
  bind query fun _ _ => each fun _ _ => bind (write _) fun _ _ => write _

theorem removeWalletID (walletID : WalletID) :
    Quiet (fun _ => True) (WalletDomainService.removeWalletID walletID) := by
  apply bind (write _)
  intro _ _
  apply bind (removeAccounts walletID)
  exact fun _ _ => removeTransactions walletID

theorem removeWalletData (wallet : Wallet) :
    Quiet (fun _ => True) (WalletDomainService.removeWalletData wallet) := by
  apply bind (write _)
  intro _ _
  apply bind (each fun _ _ => write _)
  intro _ _
  cases wallet.address with
  | none => trivial
  | some address => exact bind query fun _ _ => each fun _ _ => write _

/-- Removing a wallet is quiet. -/
theorem removeWallet (walletID : WalletID) :
    Quiet (fun _ => True) (WalletDomainService.removeWallet walletID) := by
  apply bind query
  intro found _
  cases found with
  | none => exact removeWalletID walletID
  | some wallet => exact bind (removeWalletData wallet) fun _ _ => removeWalletID walletID

theorem abandon (wallet : Wallet) (walletID : WalletID) :
    Quiet (fun _ => True) (abandon wallet walletID) :=
  bind cancel fun _ _ => removeWallet walletID

/-! ## Everything around the recovery -/

theorem subscribeForTransactionProcessing (walletID : WalletID) :
    Quiet (fun _ => True) (subscribeForTransactionProcessing walletID) := by
  apply bind query
  intro found _
  cases found with
  | none => trivial
  | some wallet =>
      apply bind (findRecoveryTransaction walletID)
      intro tx _
      apply bind (lift fun _ _ => trivial)
      intro tx _
      split
      · exact update fun _ => rfl
      · trivial

theorem prepareTransaction {draft : Wallet} (build : Outside → Option (Built draft))
    (hdraft : draft.state = .recoveryDraft) :
    Quiet (fun _ => True) (prepareTransaction draft build) := by
  have hold : Quiet (fun _ => True) (removeOldTransaction draft.id) := by
    apply bind (findRecoveryTransaction draft.id)
    intro found _
    cases found with
    | none => trivial
    | some tx => exact write _
  apply bind hold
  intro _ _
  apply bind query
  intro built _
  cases built with
  | none => trivial
  | some built =>
      apply bind query
      intro found _
      cases found with
      | none => trivial
      | some wallet =>
          have hready : built.wallet.state ≠ .readyToUse := by
            rw [built.same_state, hdraft]
            decide
          apply bind (saveWallet hready)
          intro _ _
          apply bind (write _)
          exact fun _ _ => publish (by simp)

theorem createRecoverDraftWallet (services : Services) (account : ExternallyOwnedAccount) :
    Quiet (fun _ => True) (createRecoverDraftWallet services account) := by
  apply bind (write _)
  intro _ _
  apply bind query
  intro walletID _
  apply bind (saveWallet (by simp [draftWallet]))
  intro _ _
  apply bind (write _)
  exact fun _ _ => write _

theorem updatePending (tx : Transaction) :
    Quiet (fun _ => True) (TransactionDomainService.updatePending tx) := by
  unfold TransactionDomainService.updatePending
  split
  · trivial
  · apply bind query
    intro receipt _
    match receipt with
    | none => trivial
    | some none => trivial
    | some (some receipt) =>
        apply bind query
        intro now _
        apply bind (lift fun _ _ => trivial)
        intro tx _
        apply bind query
        intro block _
        match block with
        | none => trivial
        | some none => exact bind (write _) fun _ _ => trivial
        | some (some timestamp) =>
            exact bind (write _) fun _ _ => bind (write _) fun _ _ => trivial

theorem updatePendingTransactions :
    Quiet (fun _ => True) TransactionDomainService.updatePendingTransactions := by
  have hall : ∀ (transactions : List Transaction) (hasUpdates : Bool),
      Quiet (fun _ => True) (TransactionDomainService.updateAll transactions hasUpdates) := by
    intro transactions
    induction transactions with
    | nil =>
        intro hasUpdates
        cases hasUpdates with
        | false => trivial
        | true => exact publish (by simp)
    | cons tx rest ih =>
        intro hasUpdates
        apply bind (updatePending tx)
        intro saved _
        cases saved with
        | none => trivial
        | some saved => exact ih _
  exact bind query fun transactions _ => hall transactions false

theorem cleanUpDrafts : Quiet (fun _ => True) WalletApplication.cleanUpDrafts := by
  apply bind query
  intro drafts _
  apply bind (each fun draft _ => removeWallet draft.id)
  intro _ _
  apply bind query
  intro stale _
  apply each
  intro walletID _
  exact removeWalletID walletID

theorem appDidFinishLaunching : Quiet (fun _ => True) WalletApplication.appDidFinishLaunching := by
  apply bind cleanUpDrafts
  intro _ _
  apply bind (write _)
  intro _ _
  have hresume : Quiet (fun _ => True) WalletApplication.resumeRecoveryInBackground :=
    update fun _ => rfl
  exact bind hresume fun _ _ => update fun _ => rfl

theorem cleanUpStaleTransactions :
    Quiet (fun _ => True) TransactionDomainService.cleanUpStaleTransactions :=
  bind query fun _ _ => each fun _ _ => write _

end Quiet

/-! ## Calls that declare after the checks -/

variable {services : Services} {app : App} {walletID : WalletID}

/-- Entering a state with a checked wallet is justified, also when it declares it. -/
theorem enter_sound {state : WalletState} {event : Option DomainEvent}
    (hchecked : Checked app.log wallet)
    (hevent : event = some .walletRecovered → state = .readyToUse) :
    (wallet.enter state event).Sound declaring (fun wallet' app' =>
      wallet' = { wallet with state := wallet'.state } ∧ Checked app'.log wallet) app := by
  have hsaved : ∀ {log}, Checked log wallet → Checked log { wallet with state := state } :=
    fun h => h.of_same rfl rfl rfl
  apply Process.Sound.bind
  apply Process.Sound.perform
  intro app₁ outside hgrows _
  have hchecked₁ := hchecked.mono hgrows.1
  constructor
  · apply Grows.of_observed rfl
    cases Option.map Wallet.state _ with
    | none => trivial
    | some previous => exact fun _ _ => hsaved hchecked₁
  · intro app₂ hgrows₂
    have hchecked₂ : Checked app₂.log wallet :=
      hchecked₁.mono ((List.suffix_cons _ _).trans hgrows₂.1)
    have hmem := hgrows₂.1.mem List.mem_cons_self
    cases event with
    | none => exact fun app₃ hgrows₃ => ⟨rfl, hchecked₂.mono hgrows₃.1⟩
    | some event =>
        intro app₃ outside hgrows₃ _
        have hchecked₃ := hchecked₂.mono hgrows₃.1
        refine ⟨?_, fun app₄ hgrows₄ => ⟨rfl, ?_⟩⟩
        · apply Grows.of_observed rfl
          by_cases heq : event = .walletRecovered
          · subst heq
            exact ⟨_, _, hgrows₃.1.mem hmem, hevent rfl, hsaved hchecked₃⟩
          · have hharmless : Harmless (.published event) := heq
            exact hharmless.justified
        · exact hchecked₃.mono ((List.suffix_cons _ _).trans hgrows₄.1)

/-- A checked wallet proceeds from any state. -/
theorem proceed_sound (hchecked : Checked app.log wallet) :
    wallet.proceed.Sound declaring (fun wallet' app' =>
      wallet' = { wallet with state := wallet'.state } ∧ Checked app'.log wallet) app := by
  have hstay : ∀ app', Grows app app' → (Process.pure wallet : Call Wallet).Sound declaring
      (fun wallet' app' =>
        wallet' = { wallet with state := wallet'.state } ∧ Checked app'.log wallet) app' := by
    intro app' hgrows app'' hgrows'
    exact ⟨rfl, hchecked.mono (hgrows.1.trans hgrows'.1)⟩
  unfold Wallet.proceed
  split
  · exact enter_sound hchecked (by simp)
  · exact enter_sound hchecked (by simp)
  · unfold Wallet.proceedWithFirstDeposit
    split
    · trivial
    · apply Quiet.bind_sound Quiet.query
      intro account app' _ hgrows
      cases account with
      | none => exact hstay app' hgrows
      | some account =>
          simp only
          split
          · exact enter_sound (hchecked.mono hgrows.1) (by simp)
          · exact enter_sound (hchecked.mono hgrows.1) (by simp)
  · exact enter_sound hchecked (by simp)
  · exact enter_sound hchecked (by simp)
  · exact enter_sound hchecked (by simp)
  · exact hstay app (declaring.rely_refl app)
  · exact enter_sound hchecked (by simp)
  · exact enter_sound hchecked (by simp)
  · exact enter_sound hchecked fun _ => rfl

theorem finish_sound (hchecked : Checked app.log wallet) :
    (finish wallet).Sound declaring (fun _ _ => True) app := by
  apply Quiet.bind_sound (Quiet.lift fun _ _ => trivial)
  intro paper app₁ _ hgrows₁
  apply Quiet.bind_sound (Quiet.write _)
  intro _ app₂ _ hgrows₂
  apply Quiet.bind_sound (Quiet.lift fun _ _ => trivial)
  intro derived app₃ _ hgrows₃
  apply Quiet.bind_sound (Quiet.write _)
  intro _ app₄ _ hgrows₄
  have hchecked₄ : Checked app₄.log wallet :=
    hchecked.mono (hgrows₁.1.trans (hgrows₂.1.trans (hgrows₃.1.trans hgrows₄.1)))
  apply Process.Sound.bind
  apply (proceed_sound hchecked₄).mono
  rintro wallet' app₅ ⟨hsame, hchecked₅⟩
  apply Process.Sound.perform
  intro app₆ outside hgrows₆ _
  refine ⟨?_, fun _ _ => trivial⟩
  apply Grows.of_observed rfl
  cases Option.map Wallet.state _ with
  | none => trivial
  | some previous =>
      intro _ _
      apply (hchecked₅.mono hgrows₆.1).of_same
      · rw [hsame]
        rfl
      · rw [hsame]
        simp [RecoveryTransactionBuilder.localOwners, Wallet.removeOwner]
      · rw [hsame]
        rfl

/-! ## Reading with a record -/

section Reading

variable {contract : Address} {place : Place}

/-- An answer about the owners is on record. -/
theorem getOwners_sound : (Call.getOwners services walletID contract).Sound declaring
    (fun answer app' => .owners walletID (.ok answer) ∈ app'.log ∧ Grows app app') app := by
  apply Process.Sound.bind
  apply Process.Sound.perform
  intro app₁ outside hgrows₁ _
  have hobserved : ∀ answer, Grows app₁ (app₁.observe (.owners walletID answer)) :=
    fun _ => .of_observed rfl trivial
  refine ⟨hobserved _, fun app₂ hgrows₂ => ?_⟩
  apply Process.Sound.lift
  intro answer hanswer app₃ hgrows₃
  simp only at hanswer
  rw [← hanswer]
  refine ⟨hgrows₃.1.mem (hgrows₂.1.mem List.mem_cons_self), ?_⟩
  exact declaring.rely_trans hgrows₁ (declaring.rely_trans (hobserved _)
    (declaring.rely_trans hgrows₂ hgrows₃))

/-- An answer about the threshold is on record. -/
theorem getThreshold_sound : (Call.getThreshold services walletID contract).Sound declaring
    (fun answer app' => .threshold walletID (.ok answer) ∈ app'.log ∧ Grows app app') app := by
  apply Process.Sound.bind
  apply Process.Sound.perform
  intro app₁ outside hgrows₁ _
  have hobserved : ∀ answer, Grows app₁ (app₁.observe (.threshold walletID answer)) :=
    fun _ => .of_observed rfl trivial
  refine ⟨hobserved _, fun app₂ hgrows₂ => ?_⟩
  apply Process.Sound.lift
  intro answer hanswer app₃ hgrows₃
  simp only at hanswer
  rw [← hanswer]
  refine ⟨hgrows₃.1.mem (hgrows₂.1.mem List.mem_cons_self), ?_⟩
  exact declaring.rely_trans hgrows₁ (declaring.rely_trans (hobserved _)
    (declaring.rely_trans hgrows₂ hgrows₃))

/-- The wallet that is read has the identifier asked for and is as expected there. -/
theorem findWallet_sound : (Call.findWallet walletID place).Sound declaring (fun found app' =>
    (∃ app₁, Expected app₁ place ∧ found = app₁.store.wallets.find walletID) ∧ Grows app app')
    app := by
  apply Process.Sound.perform
  intro app₁ outside hgrows₁ hexpected
  refine ⟨.of_log_eq rfl, fun app₂ hgrows₂ => ⟨⟨app₁, hexpected, rfl⟩, ?_⟩⟩
  exact declaring.rely_trans hgrows₁ hgrows₂

/-- The status that is read is on record. -/
theorem findRecoveryTransaction_sound : (Call.findRecoveryTransaction walletID).Sound declaring
    (fun found app' => (∀ tx, found = some tx → .transaction walletID tx.status ∈ app'.log) ∧
      Grows app app') app := by
  apply Process.Sound.perform
  intro app₁ outside hgrows₁ _
  cases htx : app₁.recoveryTransaction walletID with
  | none =>
      refine ⟨.of_log_eq rfl, fun app₂ hgrows₂ => ⟨fun tx heq => (nomatch heq), ?_⟩⟩
      exact declaring.rely_trans hgrows₁ hgrows₂
  | some tx =>
      have hobserved : Grows app₁ (app₁.observe (.transaction walletID tx.status)) :=
        .of_observed rfl trivial
      refine ⟨hobserved, fun app₂ hgrows₂ => ⟨?_, ?_⟩⟩
      · intro tx' heq
        cases heq
        exact hgrows₂.1.mem List.mem_cons_self
      · exact declaring.rely_trans hgrows₁ (declaring.rely_trans hobserved hgrows₂)

end Reading

theorem Quiet.sound' {α : Type} {post : α → Prop} {call : Call α} (h : Quiet post call)
    (app : App) : call.Sound declaring (fun _ _ => True) app :=
  (h.sound app).mono fun _ _ _ => trivial

/-- The checks are made before the wallet is declared. -/
theorem check_sound {contract : Address} (hid : wallet.id = walletID)
    (htx : .transaction walletID .success ∈ app.log) :
    (check services wallet walletID contract).Sound declaring (fun _ _ => True) app := by
  have habandon := (Quiet.abandon wallet walletID).sound'
  apply Process.Sound.bind
  apply getOwners_sound.mono
  rintro remoteOwners app₁ ⟨howners, hgrows₁⟩
  cases remoteOwners with
  | none => exact habandon app₁
  | some remoteOwners =>
      simp only
      split
      · rename_i hsame
        apply Process.Sound.bind
        apply getThreshold_sound.mono
        rintro remoteThreshold app₂ ⟨hthreshold, hgrows₂⟩
        cases remoteThreshold with
        | none => exact habandon app₂
        | some remoteThreshold =>
            simp only
            split
            · rename_i hcount
              apply finish_sound
              unfold Checked
              rw [hid]
              exact ⟨hgrows₂.1.mem (hgrows₁.1.mem htx), _, _, hgrows₂.1.mem howners, hthreshold,
                hsame, hcount⟩
            · exact habandon app₂
      · exact habandon app₁

theorem postProcessing_sound (htx : .transaction walletID .success ∈ app.log) :
    (postProcessing services walletID).Sound declaring (fun _ _ => True) app := by
  apply Process.Sound.bind
  apply findWallet_sound.mono
  rintro found app₁ ⟨⟨app₀, -, rfl⟩, hgrows₁⟩
  cases hfind : app₀.store.wallets.find walletID with
  | none => exact fun _ _ => trivial
  | some wallet =>
      obtain ⟨-, hid⟩ := Table.mem_of_find hfind
      apply Quiet.bind_sound (Quiet.findRecoveryTransaction walletID)
      intro tx app₂ _ hgrows₂
      apply Quiet.bind_sound (Quiet.lift fun _ _ => trivial)
      intro _ app₃ _ hgrows₃
      apply Quiet.bind_sound (Quiet.lift fun _ _ => trivial)
      intro contract app₄ _ hgrows₄
      apply check_sound hid
      exact hgrows₄.1.mem (hgrows₃.1.mem (hgrows₂.1.mem (hgrows₁.1.mem htx)))

/-- The handler is sound where it finds a wallet that does not become ready. -/
theorem handling_sound {tx : Transaction} (htx : .transaction walletID tx.status ∈ app.log) :
    (handleTransactionProgress services tx walletID).Sound declaring (fun _ _ => True) app := by
  apply Process.Sound.bind
  apply findWallet_sound.mono
  rintro found app₁ ⟨⟨app₀, hexpected, rfl⟩, hgrows₁⟩
  cases hfind : app₀.store.wallets.find walletID with
  | none => exact fun _ _ => trivial
  | some wallet =>
      have hproceed := Quiet.proceed (hexpected wallet hfind)
      cases hstatus : tx.status with
      | success =>
          apply Quiet.bind_sound hproceed
          intro _ app₂ _ hgrows₂
          apply postProcessing_sound
          rw [hstatus] at htx
          exact hgrows₂.1.mem (hgrows₁.1.mem htx)
      | failed =>
          apply Quiet.bind_sound hproceed
          intro wallet' app₂ _ _
          exact (Quiet.abandon wallet' walletID).sound' app₂
      | draft => exact fun _ _ => trivial
      | signing => exact fun _ _ => trivial
      | pending => exact fun _ _ => trivial
      | rejected => exact fun _ _ => trivial

theorem transactionStatusUpdated_sound :
    (transactionStatusUpdated services walletID).Sound declaring (fun _ _ => True) app := by
  apply Process.Sound.bind
  apply findRecoveryTransaction_sound.mono
  rintro found app₁ ⟨hobserved, -⟩
  have hunsubscribe : Quiet (fun _ => True)
    (Process.update .elsewhere fun app => app.enqueue .unsubscribe) := Quiet.update fun _ => rfl
  cases found with
  | none => exact hunsubscribe.sound' app₁
  | some tx =>
      simp only
      split
      · exact fun _ _ => trivial
      · apply Quiet.bind_sound hunsubscribe
        intro _ app₂ _ hgrows₂
        exact handling_sound (hgrows₂.1.mem (hobserved tx rfl))

/-- The submission is sound where it finds a wallet that is not and does not become
ready. -/
theorem submit_sound :
    (submitRecoveryTransaction walletID).Sound declaring (fun _ _ => True) app := by
  apply Process.Sound.bind
  apply findWallet_sound.mono
  rintro found app₁ ⟨⟨app₀, hexpected, rfl⟩, -⟩
  cases hfind : app₀.store.wallets.find walletID with
  | none => exact fun _ _ => trivial
  | some wallet =>
      obtain ⟨hproceeds, hready⟩ := hexpected wallet hfind
      suffices hquiet : Quiet (fun _ => True) _ from hquiet.sound' app₁
      apply Quiet.bind (Quiet.findRecoveryTransaction walletID)
      intro tx _
      apply Quiet.bind (Quiet.lift fun _ _ => trivial)
      intro tx _
      apply Quiet.bind Quiet.query
      intro hash _
      cases hash with
      | none => trivial
      | some hash =>
          apply Quiet.bind Quiet.query
          intro now _
          apply Quiet.bind (Quiet.lift fun _ _ => trivial)
          intro tx _
          apply Quiet.bind (Quiet.write _)
          intro _ _
          apply Quiet.bind (Quiet.publish (by simp))
          intro _ _
          apply Quiet.bind (Quiet.proceed hproceeds)
          intro wallet' hready'
          apply Quiet.bind (Quiet.saveWallet (hready' hready))
          exact fun _ _ => Quiet.subscribeForTransactionProcessing walletID

/-- Resuming is sound, wherever it continues. -/
theorem resume_sound : (resume services walletID).Sound declaring (fun _ _ => True) app := by
  apply Process.Sound.bind
  apply findWallet_sound.mono
  rintro found app₁ -
  cases found with
  | none => exact fun _ _ => trivial
  | some wallet =>
      apply Process.Sound.bind
      apply findRecoveryTransaction_sound.mono
      rintro found app₂ ⟨hobserved, -⟩
      cases found with
      | none => exact fun _ _ => trivial
      | some tx =>
          have htx := hobserved tx rfl
          simp only
          split
          · rename_i call hcall
            rcases continuation_cases hcall with ⟨rfl, -⟩ | ⟨rfl, -, hstatus⟩ | ⟨rfl, -⟩ | ⟨rfl, -⟩
            · exact submit_sound
            · rw [hstatus] at htx
              exact postProcessing_sound htx
            · exact (Quiet.subscribeForTransactionProcessing walletID).sound' app₂
            · exact handling_sound htx
          · trivial

/-! ## Runs -/

/-- In every run whose calls find the wallets they may proceed with, a wallet is
declared recovered only after the checks. -/
theorem proper_of_expected {mayStart : System.Config App Outside Place → Prop}
    {config : System.Config App Outside Place} {store : Store}
    (hruns : (system services).Runs Expected mayStart ⟨.ofStore store, []⟩ config) :
    Proper config.state.log := by
  have hstarts : ∀ app call app', (system services).starts app call app' →
      declaring.rely app app' ∧ call.Sound declaring (fun _ _ => True) app' := by
    intro app call app' hstart
    cases hstart with
    | job hmem =>
        rename_i job
        refine ⟨.of_log_eq rfl, ?_⟩
        cases job with
        | resumeRecovery walletID => exact resume_sound
        | transactionStatusUpdated walletID => exact transactionStatusUpdated_sound
        | cleanUpStaleTransactions => exact Quiet.cleanUpStaleTransactions.sound' _
    | resumeRecovery => exact ⟨.of_log_eq rfl, resume_sound⟩
    | createRecoverDraftWallet account =>
        exact ⟨.of_log_eq rfl, (Quiet.createRecoverDraftWallet services account).sound' _⟩
    | editDraft _ _ hdraft _ hstate =>
        refine ⟨.of_log_eq rfl, (Quiet.saveWallet ?_).sound' _⟩
        rw [hstate, hdraft]
        decide
    | prepareTransaction build _ _ hdraft =>
        exact ⟨.of_log_eq rfl, (Quiet.prepareTransaction build hdraft).sound' _⟩
    | cancelRecovery walletID => exact ⟨.of_log_eq rfl, (Quiet.removeWallet walletID).sound' _⟩
    | cleanUpDrafts => exact ⟨.of_log_eq rfl, Quiet.cleanUpDrafts.sound' _⟩
    | updatePendingTransactions =>
        exact ⟨.of_log_eq rfl, Quiet.updatePendingTransactions.sound' _⟩
  have hmoves : ∀ app app', Delivers app app' → Grows app app' := by
    rintro app app' ⟨publisher, jobs, -, rfl⟩
    exact .of_log_eq rfl
  have hinvariant := @System.Runs.invariant _ _ _ (system services) declaring
    (fun app => Proper app.log) mayStart (fun _ _ h => h) (fun _ _ h => h.2)
    (fun _ _ _ hstart _ => hstarts _ _ _ hstart) hmoves (fun _ h => h)
    fun app _ => Quiet.appDidFinishLaunching.sound' app.restart
  exact (hinvariant hruns trivial fun call hmem => by cases hmem).1

/-! ## A wallet declared by mistake -/

section Example

open RecoveryTransactionBuilder SafeWallet.System

/-- A wallet whose recovery transaction was submitted. -/
def submittedWallet : Wallet :=
  { recoveryWallet deviceAddress paperAddress derivedAddress none with
    state := .recoveryInProgress }

/-- Its recovery transaction. -/
def pendingRecovery : Transaction :=
  .toItself "recovery" .walletRecovery "wallet" safe .pending "0x01"

/-- The repositories with that wallet, which is selected. -/
def submittedStore : Store :=
  { Store.ofWallets (Table.empty.save submittedWallet) (Table.empty.save pendingRecovery) with
    portfolio := some ⟨["wallet"], some "wallet"⟩ }

/-- The transaction was mined and failed. -/
def failing : Outside :=
  { offline with
    eth_getTransactionReceipt := fun _ => some (some ⟨false, []⟩)
    eth_getBlockByHash := fun _ => some none }

/-- The failure is stored. -/
def failedApp : App :=
  (TransactionDomainService.updatePendingTransactions.advance failing 6
    (.ofStore submittedStore)).2

/-- The handler of the failure is interrupted after its first save. -/
def interruptedApp : App := ((resume offlineServices "wallet").advance offline 4 failedApp).2

/-- The program is launched again. -/
def relaunchedApp : App :=
  (WalletApplication.appDidFinishLaunching.advance offline 20 interruptedApp.restart).2

/-- The resumed handler takes the wallet for one that waits for its first transition. -/
def declaredApp : App :=
  ((resume offlineServices "wallet").advance offline 4
    { relaunchedApp with jobs := relaunchedApp.jobs.erase (.resumeRecovery "wallet") }).2

/-- The wallet is declared recovered although its transaction failed and nothing was
compared. -/
theorem failedRecovery_declared :
    ∃ config, (system offlineServices).Runs (fun _ _ => True) (fun _ => True)
        ⟨.ofStore submittedStore, []⟩ config ∧
      (config.state.store.wallets.find "wallet").map Wallet.state = some .readyToUse ∧
      (config.state.recoveryTransaction "wallet").map Transaction.status = some .failed ∧
      ¬ Proper config.state.log := by
  have hall : ∀ (outside : Outside) (n : ℕ) (call : Call Unit) (app : App),
      call.Allowed (fun _ _ => True) outside n app :=
    Process.allowed_of_forall fun _ _ => trivial
  have hfailed : (system offlineServices).Runs (fun _ _ => True) (fun _ => True)
      ⟨.ofStore submittedStore, []⟩ ⟨failedApp, [.pure ()]⟩ :=
    Runs.call failing 6 Config.alive_nil trivial (Starts.updatePendingTransactions rfl)
      (hall failing 6 _ _)
  have hselected : failedApp.selectedWallet = some submittedWallet := by decide
  have hinterrupted := hfailed.trans (Runs.call offline 4 (Config.alive_nil.cons rfl) trivial
    (Starts.resumeRecovery rfl hselected) (hall offline 4 _ _))
  have hrelaunched : (system offlineServices).Runs (fun _ _ => True) (fun _ => True)
      ⟨.ofStore submittedStore, []⟩ ⟨relaunchedApp, [.pure ()]⟩ :=
    hinterrupted.trans (Runs.relaunch offline 20 _ _ (hall offline 20 _ _))
  have hjob : Job.resumeRecovery "wallet" ∈ relaunchedApp.jobs := by decide
  have hdeclared := hrelaunched.trans (Runs.call offline 4 (Config.alive_nil.cons rfl) trivial
    (Starts.job hjob) (hall offline 4 _ _))
  refine ⟨_, hdeclared, by decide, by decide, ?_⟩
  intro (hproper : Proper declaredApp.log)
  have hlog : declaredApp.log = .saved (some .recoveryPostProcessing)
      { submittedWallet with state := .readyToUse } :: declaredApp.log.tail := rfl
  rw [hlog] at hproper
  obtain ⟨hsuccess, -⟩ := hproper.1 rfl rfl
  have htail : declaredApp.log.tail = [.transaction "wallet" .failed,
      .saved (some .recoveryInProgress)
        { submittedWallet with state := .recoveryPostProcessing },
      .transaction "wallet" .failed, .published .transactionStatusUpdated] := rfl
  rw [htail] at hsuccess
  simp at hsuccess

/-! ## A wallet declared after the checks -/

/-- The transaction went through, and the contract has the new owners. -/
def confirming : Outside :=
  { offline with
    eth_call := (answering recoveryKit recoveryMetadata safe halfwayManager).eth_call
    eth_getTransactionReceipt := fun _ => some (some ⟨true, []⟩)
    eth_getBlockByHash := fun _ => some none }

/-- The success is stored. -/
def succeededApp : App :=
  (TransactionDomainService.updatePendingTransactions.advance confirming 6
    (.ofStore submittedStore)).2

/-- The program is launched again. -/
def launchedApp : App :=
  (WalletApplication.appDidFinishLaunching.advance offline 20 succeededApp.restart).2

/-- The recovery is resumed in the background. -/
def resumedApp : App :=
  { launchedApp with jobs := launchedApp.jobs.erase (.resumeRecovery "wallet") }

/-- The recovery transaction after its success was stored. -/
def minedRecovery : Transaction :=
  { pendingRecovery with status := .success, processedDate := some 0, updatedDate := some 0 }

/-- The wallet while its owners are checked. -/
def checkedWallet : Wallet := { submittedWallet with state := .recoveryPostProcessing }

/-- The transaction has been read. -/
def readApp : App := resumedApp.observe (.transaction "wallet" .success)

/-- The wallet has been saved before the checks. -/
def movedApp : App := readApp.saveWallet checkedWallet

/-- Both checks have been made. -/
def checkedApp : App :=
  ((movedApp.observe (.transaction "wallet" .success)).observe
    (.owners "wallet" (.ok (some (halfwayManager.owners.map Address.ofChain))))).observe
      (.threshold "wallet" (.ok (some 1)))

/-- The recovery is completed. -/
def completedApp : App := ((finish checkedWallet).alone confirming checkedApp).2

section Completes

variable {outside : Outside} {app app' : App} {contract : Address}

theorem findWallet_completes (place : Place) (h : Expected app place) :
    (Call.findWallet walletID place).Completes Expected outside app
      (app.store.wallets.find walletID) app :=
  .perform h

theorem findRecoveryTransaction_completes {tx : Transaction}
    (h : app.recoveryTransaction walletID = some tx) :
    (Call.findRecoveryTransaction walletID).Completes Expected outside app (some tx)
      (app.observe (.transaction walletID tx.status)) :=
  ⟨Call.alone_findRecoveryTransaction h, (Process.Completes.perform trivial).allowed⟩

/-- An answer of the contract is on record before it is used. -/
theorem answer_completes {α : Type} {answer : Outside → Trapping α}
    {record : Trapping α → Observation} {a : α} (h : answer outside = .ok a) :
    (Process.perform Place.elsewhere (fun (app : App) outside =>
      (answer outside, app.observe (record (answer outside)))) >>= Process.lift).Completes
        Expected outside app a (app.observe (record (.ok a))) := by
  refine (Process.Completes.perform trivial).bind ?_
  rw [h]
  exact Process.Completes.of_advance (n := 0) rfl trivial

theorem check_completes {remoteOwners : List Address}
    (howners : SafeOwnerManagerContractProxy.getOwners
      { services with eth_call := outside.eth_call } contract = .ok (some remoteOwners))
    (hsame : sameOwners wallet remoteOwners = true)
    (hthreshold : SafeOwnerManagerContractProxy.getThreshold
      { services with eth_call := outside.eth_call } contract =
        .ok (some wallet.confirmationCount))
    (hfinish : (finish wallet).Completes Expected outside
      ((app.observe (.owners walletID (.ok (some remoteOwners)))).observe
        (.threshold walletID (.ok (some wallet.confirmationCount)))) () app') :
    (check services wallet walletID contract).Completes Expected outside app () app' := by
  refine (answer_completes howners).bind ?_
  simp only [hsame, if_true]
  refine (answer_completes hthreshold).bind ?_
  simpa only [if_true] using hfinish

end Completes

theorem postProcessing_completes : (postProcessing offlineServices "wallet").Completes Expected
    confirming movedApp () completedApp := by
  have hwallet : movedApp.store.wallets.find "wallet" = some checkedWallet := Table.find_save_self
  have htx : movedApp.recoveryTransaction "wallet" = some minedRecovery := by decide +kernel
  have howners : SafeOwnerManagerContractProxy.getOwners
      { offlineServices with eth_call := confirming.eth_call } safe =
        .ok (some (halfwayManager.owners.map Address.ofChain)) := by decide +kernel
  have hthreshold : SafeOwnerManagerContractProxy.getThreshold
      { offlineServices with eth_call := confirming.eth_call } safe =
        .ok (some checkedWallet.confirmationCount) := by decide +kernel
  have hsame : sameOwners checkedWallet (halfwayManager.owners.map Address.ofChain) = true := by
    have hlocal : (localOwners checkedWallet).map Owner.address =
        halfwayManager.owners.map Address.ofChain := by decide +kernel
    simp [sameOwners, hlocal]
  have hfinish : (finish checkedWallet).Completes Expected confirming checkedApp () completedApp :=
    .of_advance (n := 10) rfl (by decide +kernel)
  refine (findWallet_completes .elsewhere trivial).bind ?_
  rw [hwallet]
  exact (findRecoveryTransaction_completes htx).bind
    (check_completes howners hsame hthreshold hfinish)

theorem resume_completes : (resume offlineServices "wallet").Completes Expected confirming
    resumedApp () completedApp := by
  have hwallet : resumedApp.store.wallets.find "wallet" = some submittedWallet := by decide +kernel
  have htx : resumedApp.recoveryTransaction "wallet" = some minedRecovery := by decide +kernel
  have hcontinues : continuation offlineServices submittedWallet minedRecovery "wallet" =
      some (handleTransactionProgress offlineServices minedRecovery "wallet") := rfl
  have hproceed : submittedWallet.proceed.Completes Expected confirming readApp checkedWallet
      movedApp := .of_advance (n := 4) rfl (by decide +kernel)
  have hhandles : (handleTransactionProgress offlineServices minedRecovery "wallet").Completes
      Expected confirming readApp () completedApp := by
    have hread : readApp.store.wallets.find "wallet" = some submittedWallet := hwallet
    refine (findWallet_completes (.handling "wallet") (by decide +kernel)).bind ?_
    rw [hread]
    exact hproceed.bind postProcessing_completes
  refine (findWallet_completes .elsewhere trivial).bind ?_
  rw [hwallet]
  refine (findRecoveryTransaction_completes htx).bind ?_
  simp only [hcontinues]
  exact hhandles

/-- The pending transaction is updated, and the program is stopped and launched. -/
theorem runs_launched : (system offlineServices).Runs Expected Config.Idle
    ⟨.ofStore submittedStore, []⟩ ⟨launchedApp, [.pure ()]⟩ := by
  have hidle : Config.Idle (⟨.ofStore submittedStore, []⟩ : Config App Outside Place) :=
    fun call hmem => by cases hmem
  have hupdated : (system offlineServices).Runs Expected Config.Idle
      ⟨.ofStore submittedStore, []⟩ ⟨succeededApp, [.pure ()]⟩ :=
    Runs.call confirming 6 Config.alive_nil hidle (Starts.updatePendingTransactions rfl)
      (by decide +kernel)
  exact hupdated.trans (Runs.relaunch offline 20 _ _ (by decide +kernel))

/-- The recovery is resumed and completed. -/
theorem runs_completed : (system offlineServices).Runs Expected Config.Idle
    ⟨.ofStore submittedStore, []⟩ ⟨completedApp, [.pure (), .pure ()]⟩ := by
  have hjob : Job.resumeRecovery "wallet" ∈ launchedApp.jobs := by decide +kernel
  have hidle : Config.Idle (⟨launchedApp, [.pure ()]⟩ : Config App Outside Place) :=
    fun call hmem => List.mem_singleton.mp hmem
  have halive : Config.Alive (⟨launchedApp, [.pure ()]⟩ : Config App Outside Place) :=
    Config.alive_nil.cons rfl
  exact (runs_launched.tail (.start halive hidle (Starts.job hjob))).trans
    (Runs.completes (Config.alive_nil.cons rfl) resume_completes)

/-- Resumed with the wallet in the asserted state, the recovery is checked and declared. -/
theorem minedRecovery_proper :
    ∃ config, (system offlineServices).Runs Expected Config.Idle
        ⟨.ofStore submittedStore, []⟩ config ∧
      (config.state.store.wallets.find "wallet").map Wallet.state = some .readyToUse ∧
      Proper config.state.log :=
  ⟨_, runs_completed, by decide +kernel, proper_of_expected runs_completed⟩

end Example

end RecoveryDomainService

end SafeWallet
