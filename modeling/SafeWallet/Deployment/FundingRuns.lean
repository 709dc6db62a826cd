/-
# Deployments are funded

Every call of the deployment service keeps the record in order, as long as its actions
are orderly. What a call relies on between two of its actions are facts about the
record, which only grows: a balance that was seen stays seen. Runs are arbitrary
interleavings of all calls with events in flight and crashes after any action.

The handlers do not check the state of the wallet, though each repeater does. Three
starts in a row deliver one event three times, and the handler takes the wallet through
the states that wait for money without asking for a balance.
-/

import SafeWallet.Deployment.Funding
import SafeWallet.Deployment.Staleness

namespace SafeWallet

namespace DeploymentDomainService

/-! ## Facts about the record -/

/-- A fact that stays true while the record grows. -/
structure Fact where
  holds : List Observation → Prop
  lasts : ∀ {log log' : List Observation}, log <:+ log' → holds log → holds log'

namespace Fact

/-- Nothing is known. -/
def top : Fact := ⟨fun _ => True, fun _ h => h⟩

/-- Something that does not depend on the record. -/
def const (p : Prop) : Fact := ⟨fun _ => p, fun _ h => h⟩

/-- Both of two facts. -/
def and (first second : Fact) : Fact where
  holds log := first.holds log ∧ second.holds log
  lasts hsuffix h := ⟨first.lasts hsuffix h.1, second.lasts hsuffix h.2⟩

/-- Something was observed. -/
def seen (observation : Observation) : Fact := ⟨(observation ∈ ·), fun hsuffix => hsuffix.mem⟩

/-- Something was observed, if there was something to observe. -/
def recorded (record : Option Observation) : Fact where
  holds log := ∀ observation, record = some observation → observation ∈ log
  lasts hsuffix h observation hrecord := hsuffix.mem (h observation hrecord)

/-- An object that waits has an address at which its wallet has waited. -/
def known (object : Wallet) : Fact := ⟨Known object, fun hsuffix h => h.mono hsuffix⟩

/-- A balance was seen for the object that covers its fee. -/
def funded (object : Wallet) : Fact := ⟨Funded object, fun hsuffix h => h.mono hsuffix⟩

/-- A deposit was made for the object. -/
def deposited (object : Wallet) : Fact := ⟨Deposited object, fun hsuffix h => h.mono hsuffix⟩

/-- The amount can be read in the account of the object. -/
def readable (object : Wallet) (amount : ℤ) : Fact :=
  ⟨Readable object amount, fun hsuffix h => h.mono hsuffix⟩

end Fact

/-- All calls let the record grow and keep the invariant. -/
def funding : Discipline App Place where
  rely app app' := app.log <:+ app'.log ∧ (Invariant app → Invariant app')
  guarantee app app' := app.log <:+ app'.log ∧ (Invariant app → Invariant app')
  guard := Orderly
  rely_refl _ := ⟨List.suffix_rfl, id⟩
  rely_trans h h' := ⟨h.1.trans h'.1, h'.2 ∘ h.2⟩

/-- Whatever happens around it, the call keeps the invariant; and if `pre` is known when
it begins, `post` is when it ends. -/
def Ensures {α : Type} (pre : Fact) (call : Call α) (post : α → Fact) : Prop :=
  ∀ app, Invariant app → pre.holds app.log →
    call.Sound funding (fun a app' => (post a).holds app'.log) app

namespace Ensures

variable {α β : Type} {pre pre' : Fact} {call : Call α} {post post' : α → Fact} {place : Place}

theorem pure {a : α} (h : ∀ log, pre.holds log → (post a).holds log) :
    Ensures pre (Process.pure a) post :=
  fun _ _ hpre _ hrely => (post a).lasts hrely.1 (h _ hpre)

/-- A result about which nothing is said. -/
theorem done {a : α} : Ensures pre (Process.pure a) fun _ => .top := pure fun _ _ => trivial

theorem trap {reason : Trap} : Ensures pre (Process.trap reason : Call α) post :=
  fun _ _ _ => trivial

theorem mono (h : Ensures pre call post) (hpre : ∀ log, pre'.holds log → pre.holds log)
    (hpost : ∀ a log, (post a).holds log → (post' a).holds log) : Ensures pre' call post' :=
  fun app hinv hpre' => (h app hinv (hpre _ hpre')).mono fun a _ => hpost a _

/-- What is known before a call is known after it. -/
theorem keep (h : Ensures pre call post) : Ensures pre call fun a => (post a).and pre := by
  intro app hinv hpre
  exact (h app hinv hpre).frame (fun _ _ hrely => pre.lasts hrely.1)
    (fun _ _ hguarantee => pre.lasts hguarantee.1) hpre

theorem bind {k : α → Call β} {post' : β → Fact} (h : Ensures pre call post)
    (hk : ∀ a, Ensures ((post a).and pre) (k a) post') : Ensures pre (call >>= k) post' := by
  intro app hinv hpre
  apply Process.Sound.bind
  have hcall := (h.keep app hinv hpre).frame (fun _ _ hrely => hrely.2)
    (fun _ _ hguarantee => hguarantee.2) hinv
  exact hcall.mono fun a app' hpost => hk a app' hpost.2 hpost.1

/-- A call that only lets the record grow. -/
theorem seq {k : α → Call β} {post' : β → Fact} (h : Ensures pre call fun _ => .top)
    (hk : ∀ a, Ensures pre (k a) post') : Ensures pre (call >>= k) post' :=
  bind h fun a => (hk a).mono (fun _ hpre => hpre.2) fun _ _ => id

theorem perform {f : App → Outside → α × App}
    (h : ∀ app outside, Invariant app → pre.holds app.log → Orderly app place →
      app.log <:+ (f app outside).2.log ∧ Invariant (f app outside).2 ∧
        (post (f app outside).1).holds (f app outside).2.log) :
    Ensures pre (Process.perform place f) post := by
  intro app hinv hpre app' outside hrely hguard
  obtain ⟨hlog, hinv', hpost⟩ := h app' outside (hrely.2 hinv) (pre.lasts hrely.1 hpre) hguard
  exact ⟨⟨hlog, fun _ => hinv'⟩, fun _ hrely' => (post _).lasts hrely'.1 hpost⟩

/-- A query of which something is kept in mind. -/
theorem query_of {f : App → Outside → α}
    (h : ∀ app outside, Invariant app → pre.holds app.log → Orderly app place →
      (post (f app outside)).holds app.log) : Ensures pre (Process.query place f) post :=
  perform fun app outside hinv hpre hguard => ⟨List.suffix_rfl, hinv, h app outside hinv hpre hguard⟩

theorem query {f : App → Outside → α} : Ensures pre (Process.query place f) fun _ => .top :=
  query_of fun _ _ _ _ _ => trivial

theorem lift {value : Trapping α} :
    Ensures pre (Process.lift value : Call α) fun a => .const (value = .ok a) := by
  cases value with
  | error reason => exact trap
  | ok a => exact pure fun _ _ => rfl

theorem each {bs : List β} {f : β → Call Unit} (h : ∀ b ∈ bs, Ensures .top (f b) fun _ => .top) :
    Ensures pre (Process.each bs f) fun _ => .top := by
  induction bs with
  | nil => exact done
  | cons b rest ih =>
      apply seq ((h b List.mem_cons_self).mono (fun _ _ => trivial) fun _ _ => id)
      exact fun _ => ih fun b' hmem => h b' (List.mem_cons_of_mem b hmem)

/-- A step in a frame. -/
theorem update_of {f : App → App} (h : ∀ app, pre.holds app.log → Frame app (f app)) :
    Ensures pre (Process.update place f) fun _ => .top := by
  apply perform
  intro app _ hinv hpre _
  have hframe := h app hpre
  refine ⟨?_, hframe.invariant hinv, trivial⟩
  exact hframe.log ▸ List.suffix_rfl

/-- Something else than wallets, accounts and rounds is written. -/
theorem update {f : App → App} (hlog : ∀ app, (f app).log = app.log)
    (hwallets : ∀ app, (f app).store.wallets = app.store.wallets)
    (haccounts : ∀ app, (f app).store.accounts = app.store.accounts)
    (hjobs : ∀ app, (f app).deployments = app.deployments) :
    Ensures pre (Process.update place f) fun _ => .top := by
  apply update_of
  intro app _
  constructor
  · exact hlog app
  · rw [hwallets]
    exact fun _ _ h => h
  · rw [haccounts]
    exact fun _ _ h => .inl h
  · rw [hjobs]
    exact fun _ _ _ h => .inl h

theorem write {f : Store → Store} (hwallets : ∀ store, (f store).wallets = store.wallets)
    (haccounts : ∀ store, (f store).accounts = store.accounts) :
    Ensures pre (Call.write f) fun _ => .top :=
  update (fun _ => rfl) (fun app => hwallets app.store) (fun app => haccounts app.store)
    fun _ => rfl

theorem publish {event : DomainEvent} : Ensures pre (Call.publish event) fun _ => .top := by
  apply perform
  intro app _ hinv _ _
  have hframe : Frame app (app.enqueue (.publish event)) :=
    ⟨rfl, fun _ _ h => h, fun _ _ h => .inl h, fun _ _ _ h => .inl h⟩
  have hquiet : Quiet (.published event) := ⟨fun _ => ⟨rfl, rfl⟩, fun _ _ => Observation.noConfusion⟩
  exact ⟨List.suffix_cons _ _, (hframe.invariant hinv).observe trivial hquiet, trivial⟩

/-- Somebody is asked, and what the answer says is recorded. -/
theorem ask {f : Outside → α} {record : α → Option Observation}
    (h : ∀ a observation log, record a = some observation → pre.holds log →
      Justified log observation ∧ Quiet observation) :
    Ensures pre (Call.ask f record) fun a => .recorded (record a) := by
  apply perform
  intro app outside hinv hpre _
  cases hrecord : record (f outside) with
  | none =>
      refine ⟨List.suffix_rfl, hinv, ?_⟩
      intro _ hnone
      cases hnone
  | some observation =>
      obtain ⟨hjustified, hquiet⟩ := h (f outside) observation app.log hrecord hpre
      refine ⟨List.suffix_cons _ _, hinv.observe hjustified hquiet, ?_⟩
      intro observation' hsome
      cases hsome
      exact List.mem_cons_self

/-! ### Saving wallets -/

variable {object wallet : Wallet} {next : WalletState} {event : Option DomainEvent}

/-- A wallet is saved in the state in which it is stored. -/
theorem saveWallet : Ensures pre (Call.saveWallet wallet) fun _ => .top := by
  apply perform
  intro app _ hinv _ hagrees
  obtain ⟨stored, hfind, hstate, hterms⟩ := id hagrees
  have hprevious : (app.store.wallets.find wallet.id).map Wallet.state = some wallet.state := by
    rw [hfind, Option.map_some, hstate]
  refine ⟨List.suffix_cons _ _, hinv.saveWallet ⟨?_, ?_, ?_, ?_⟩, trivial⟩
  · exact fun hfunding => .inr (hinv.due hagrees hfunding)
  · intro hwaiting hne
    rw [hprevious, hwaiting] at hne
    exact absurd rfl hne
  · intro hcreation
    have hfunded := hinv.funded hfind (hstate.trans hcreation)
    have hid := (Table.mem_of_find hfind).2
    exact hfunded.of_terms hid.symm (hterms (by rw [hcreation]; rfl)).symm
  · intro hready hne
    rw [hprevious, hready] at hne
    exact absurd rfl hne

/-- A transition that keeps the invariant. -/
theorem enter (h : ∀ app, Invariant app → pre.holds app.log → Orderly app (.moving object next) →
      Invariant (app.saveWallet { object with state := next })) :
    Ensures pre (object.enter next event) fun wallet =>
      .const (wallet = { object with state := next }) := by
  unfold Wallet.enter
  have hsave : Ensures pre (Process.update (.moving object next) fun app =>
      app.saveWallet { object with state := next }) fun _ => .top := by
    apply perform
    intro app _ hinv hpre horderly
    exact ⟨List.suffix_cons _ _, h app hinv hpre horderly, trivial⟩
  apply seq hsave
  intro _
  cases event with
  | none => exact pure fun _ _ => rfl
  | some event => exact seq publish fun _ => pure fun _ _ => rfl

/-- A transition to a state in which nothing is due and nothing is ready. -/
theorem enter_plain (hfunding : next.isFunding = false) (hready : next ≠ .readyToUse) :
    Ensures pre (object.enter next event) fun wallet =>
      .const (wallet = { object with state := next }) := by
  apply enter
  intro app hinv _ _
  have hstates : next ≠ .waitingForFirstDeposit ∧ next ≠ .creationStarted := by
    constructor <;> rintro rfl <;> cases hfunding
  apply hinv.saveWallet
  exact ⟨fun h => absurd (h.symm.trans hfunding) (by decide), fun h => absurd h hstates.1,
    fun h => absurd h hstates.2, fun h => absurd h hready⟩

/-- A transition between two states in which the fee is due. -/
theorem enter_funding (hfrom : object.state.isFunding = true)
    (hnext : next = .notEnoughFunds ∨ next = .creationStarted)
    (hfunded : ∀ app, Invariant app → pre.holds app.log → Agrees app object →
      next = .creationStarted → Funded object app.log) :
    Ensures pre (object.enter next event) fun wallet =>
      .const (wallet = { object with state := next }) := by
  apply enter
  intro app hinv hpre horderly
  have hstates : next ≠ .waitingForFirstDeposit ∧ next ≠ .readyToUse := by
    rcases hnext with rfl | rfl <;> exact ⟨by decide, by decide⟩
  have hdue : Due object app.log := hinv.due horderly.1 hfrom
  apply hinv.saveWallet
  refine ⟨fun _ => .inr hdue, fun h => absurd h hstates.1, fun h => ?_,
    fun h => absurd h hstates.2⟩
  exact (hfunded app hinv hpre horderly.1 h).of_terms rfl rfl

/-- A wallet that is deployed begins to wait at its new address. -/
theorem enter_waiting (hstate : object.state = .deploying) :
    Ensures pre (object.enter .waitingForFirstDeposit event) fun wallet =>
      .const (wallet = { object with state := .waitingForFirstDeposit }) := by
  apply enter
  rintro app hinv _ ⟨⟨stored, hfind, hstored, -⟩, hfresh⟩
  have hprevious : (app.store.wallets.find object.id).map Wallet.state ≠
      some .waitingForFirstDeposit := by
    rw [hfind, Option.map_some, hstored, hstate]
    decide
  apply hinv.saveWallet
  exact ⟨fun _ => .inl ⟨rfl, hprevious⟩, fun _ _ => hfresh rfl, WalletState.noConfusion,
    WalletState.noConfusion⟩

/-- A wallet becomes ready after what was seen. -/
theorem enter_ready (hfinished : ∀ app, pre.holds app.log → Agrees app object →
      Finished ((app.store.wallets.find object.id).map Wallet.state) object app.log) :
    Ensures pre (object.enter .readyToUse event) fun wallet =>
      .const (wallet = { object with state := .readyToUse }) := by
  apply enter
  intro app hinv hpre horderly
  apply hinv.saveWallet
  exact ⟨Bool.noConfusion, WalletState.noConfusion, WalletState.noConfusion,
    fun _ _ => hfinished app hpre horderly.1⟩

/-! ### Transitions -/

/-- After the transition the object is known, because it no longer waits or because it
was known. -/
theorem of_enter {call : Call Wallet}
    (h : Ensures pre call fun wallet => .const (wallet = { object with state := next }))
    (hknown : ∀ log, pre.holds log → Known { object with state := next } log) :
    Ensures pre call .known := by
  apply h.keep.mono (fun _ => id)
  rintro wallet log ⟨rfl, hpre⟩
  exact hknown log hpre

/-- An object that no longer waits is known. -/
theorem of_left {call : Call Wallet}
    (h : Ensures pre call fun wallet => .const (wallet = { object with state := next }))
    (hwaiting : next ≠ .waitingForFirstDeposit) (hfunds : next ≠ .notEnoughFunds) :
    Ensures pre call .known :=
  of_enter h fun _ _ hstate => absurd hstate (not_or.mpr ⟨hwaiting, hfunds⟩)

/-- The first deposit has arrived: the account says whether it is enough. -/
theorem proceed_waiting (hstate : wallet.state = .waitingForFirstDeposit) :
    Ensures ((Fact.deposited wallet).and (.known wallet)) wallet.proceed .known := by
  have hfunding : wallet.state.isFunding = true := by
    rw [hstate]
    rfl
  simp only [Wallet.proceed, hstate, Wallet.proceedWithFirstDeposit]
  cases hminimum : wallet.minimumDeploymentTransactionAmount with
  | none => exact trap
  | some minimum =>
      have hread : Ensures ((Fact.deposited wallet).and (.known wallet))
          (Call.read fun store => store.accounts.find wallet.feeAccountID) fun found =>
            ⟨fun log => ∀ account, found = some account →
              Readable wallet (account.balance.getD 0) log,
            fun hsuffix h account hfound => (h account hfound).mono hsuffix⟩ := by
        apply query_of
        intro app _ hinv hpre _ account hfound
        exact hinv.readable hfound hpre.1
      apply bind hread
      intro found
      cases found with
      | none => exact pure fun _ hpre => hpre.2.2
      | some account =>
          simp only
          split
          · apply of_enter (enter_funding hfunding (.inl rfl) fun _ _ _ _ h => by cases h)
            exact fun log hpre _ => hpre.2.2 (.inl hstate)
          · rename_i hle
            refine of_left (enter_funding hfunding (.inr rfl) ?_) (by decide) (by decide)
            intro app hinv hpre hagrees _
            exact hinv.proper.funded_of_readable (hpre.1 account rfl) (hinv.due hagrees hfunding)
              hminimum (not_lt.mp hle)

/-- The fee has arrived. -/
theorem proceed_funded (hstate : wallet.state = .notEnoughFunds) :
    Ensures (.funded wallet) wallet.proceed .known := by
  simp only [Wallet.proceed, hstate]
  refine of_left (enter_funding (by rw [hstate]; rfl) (.inr rfl) ?_) (by decide) (by decide)
  exact fun app _ hpre _ _ => hpre

/-- The contract is there. -/
theorem proceed_finished (hstate : wallet.state = .finalizingDeployment) :
    Ensures (.seen (.receipt wallet true)) wallet.proceed .known := by
  simp only [Wallet.proceed, hstate]
  refine of_left (enter_ready ?_) (by decide) (by decide)
  rintro app hpre ⟨stored, hfind, hstored, -⟩
  left
  rw [hfind, Option.map_some, hstored, hstate]
  exact ⟨rfl, wallet, hpre, rfl, rfl⟩

theorem cancel : Ensures pre wallet.cancel .known := by
  have hplain : ∀ {next : WalletState} {event : Option DomainEvent}, next.isFunding = false →
      next ≠ .readyToUse → Ensures pre (wallet.enter next event) .known := by
    intro next event hfunding hready
    apply of_left (enter_plain hfunding hready) <;> rintro rfl <;> cases hfunding
  have hstays : wallet.state.isFunding = false → ∀ log, Known wallet log := by
    intro hfunding log
    rintro (hstate | hstate) <;> rw [hstate] at hfunding <;> cases hfunding
  unfold Wallet.cancel
  split <;> rename_i hstate
  · exact pure fun log _ => hstays (by rw [hstate]; rfl) log
  · exact pure fun log _ => hstays (by rw [hstate]; rfl) log
  · exact pure fun log _ => hstays (by rw [hstate]; rfl) log
  · exact hplain rfl (by decide)
  · exact hplain rfl (by decide)
  · exact hplain rfl (by decide)
  · exact hplain rfl (by decide)
  · exact seq publish fun _ => pure fun log _ => hstays (by rw [hstate]; rfl) log
  · exact hplain rfl (by decide)
  · exact hplain rfl (by decide)

/-- The deployment of a draft is begun. -/
theorem resumeDraft : Ensures pre wallet.resumeDraft fun _ => .top := by
  unfold Wallet.resumeDraft
  simp only
  split
  · split
    · refine seq (perform fun app _ hinv _ _ => ?_) fun _ => publish
      set deployed : Wallet := { wallet with
        state := .deploying, confirmationCount := wallet.allOwners.length - 2 }
      have hsaved : Invariant (app.saveWallet deployed) := hinv.saveWallet
        ⟨Bool.noConfusion, WalletState.noConfusion, WalletState.noConfusion,
          WalletState.noConfusion⟩
      have hquiet : Quiet (.begun wallet.id) := ⟨fun _ => ⟨rfl, rfl⟩, fun _ _ => Observation.noConfusion⟩
      refine ⟨?_, hsaved.observe trivial hquiet, trivial⟩
      exact (List.suffix_cons _ _).trans (List.suffix_cons _ _)
    · exact trap
  · exact trap

theorem resume : Ensures pre wallet.resume fun _ => .top := by
  unfold Wallet.resume
  split
  · exact resumeDraft
  · exact publish
  · exact publish
  · exact publish
  · exact publish
  · exact publish
  · exact done

/-! ### Removing wallets -/

/-- Wallets are removed. -/
theorem removeWalletRow {removed : WalletID} :
    Ensures pre (Call.write (Store.removeWalletRow removed)) fun _ => .top := by
  apply update_of
  intro app _
  refine ⟨rfl, ?_, fun _ _ h => .inl h, fun _ _ _ h => .inl h⟩
  intro walletID wallet hfind
  rw [App.modify_store, Store.removeWalletRow, Table.find_remove] at hfind
  split at hfind
  · cases hfind
  · exact hfind

theorem removeAccount {account : Account} :
    Ensures pre (Call.write (Store.removeAccount account)) fun _ => .top := by
  apply update_of
  intro app _
  refine ⟨rfl, fun _ _ h => h, ?_, fun _ _ _ h => .inl h⟩
  intro accountID found hfind
  rw [App.modify_store, Store.removeAccount, Table.find_remove] at hfind
  split at hfind
  · cases hfind
  · exact .inl hfind

theorem removeAccounts {removed : WalletID} :
    Ensures pre (WalletDomainService.removeAccounts removed) fun _ => .top :=
  seq query fun _ => each fun _ _ => removeAccount

theorem removeTransactions {removed : WalletID} :
    Ensures pre (WalletDomainService.removeTransactions removed) fun _ => .top := by
  apply seq query
  intro transactions
  apply each
  intro _ _
  exact seq (write (fun _ => rfl) fun _ => rfl) fun _ => write (fun _ => rfl) fun _ => rfl

theorem removeWalletID {removed : WalletID} :
    Ensures pre (WalletDomainService.removeWalletID removed) fun _ => .top := by
  refine seq (write (fun _ => rfl) fun _ => rfl) fun _ => ?_
  exact seq removeAccounts fun _ => removeTransactions

theorem removeWallet {removed : WalletID} :
    Ensures pre (WalletDomainService.removeWallet removed) fun _ => .top := by
  apply seq query
  intro found
  cases found with
  | none => exact removeWalletID
  | some wallet =>
      apply seq _ fun _ => removeWalletID
      apply seq removeWalletRow
      intro _
      refine seq (each fun _ _ => write (fun _ => rfl) fun _ => rfl) fun _ => ?_
      cases wallet.address with
      | none => exact done
      | some address => exact seq query fun _ => each fun _ _ => write (fun _ => rfl) fun _ => rfl

theorem repairModel_accounts (store : Store) :
    (WalletApplication.repairModel store).accounts = store.accounts := by
  unfold WalletApplication.repairModel
  split <;> rfl

/-- Something is handed to the global queue that is no round. -/
theorem appDidFinishLaunching : Ensures pre appDidFinishLaunching fun _ => .top := by
  have hportfolio : ∀ {pre : Fact}, Ensures pre WalletApplication.cleanUpPortfolio fun _ => .top := by
    intro pre
    apply seq query
    intro stale
    apply each
    intro removed _
    refine seq (write (fun _ => rfl) fun _ => rfl) fun _ => ?_
    exact seq removeAccounts fun _ => removeTransactions
  have hdrafts : Ensures pre WalletApplication.cleanUpDrafts fun _ => .top :=
    seq query fun _ => seq (each fun _ _ => removeWallet) fun _ => hportfolio
  apply seq hdrafts
  intro _
  apply seq (write Behaves.repairModel_wallets repairModel_accounts)
  intro _
  apply update_of
  intro app _
  refine ⟨rfl, fun _ _ h => h, fun _ _ h => .inl h, ?_⟩
  intro repeater check wallet hjob
  exact .inl (by simpa using hjob)

/-! ### Repeaters -/

theorem updateRepeaters {f : Repeaters → Repeaters} :
    Ensures pre (updateRepeaters f) fun _ => .top :=
  update (fun _ => rfl) (fun _ => rfl) (fun _ => rfl) fun _ => rfl

theorem handleError {outcome : Outcome} : Ensures pre (handleError outcome) fun _ => .top := by
  unfold DeploymentDomainService.handleError
  split
  · exact bind cancel fun _ => done
  · exact done

/-- What `updateBalance(for:)` has answered: an amount that was seen, and if it is not
zero, it was put into the account. -/
def counted (object : Wallet) : Answer ℤ → Fact
  | .error _ => .top
  | .ok balance =>
    { holds log := (∃ amount : ℕ, .balance object amount ∈ log ∧ balance ≤ amount) ∧
        (0 < balance → Deposited object log)
      lasts hsuffix h := by
        obtain ⟨⟨amount, hseen, hle⟩, hdeposited⟩ := h
        exact ⟨⟨amount, hsuffix.mem hseen, hle⟩, fun hpos => (hdeposited hpos).mono hsuffix⟩ }

/-- A balance that was seen is put into the account. -/
theorem deposit {account : Account} {amount : ℕ} (hfunding : wallet.state.isFunding = true)
    (hseen : ∀ log, pre.holds log → account.id = wallet.feeAccountID ∧
      .balance wallet amount ∈ log) :
    Ensures pre (Process.update (.depositing wallet) fun app =>
      (app.modify fun store => { store with
        accounts := store.accounts.save { account with balance := some (amount : ℤ) } }).observe
          (.deposited wallet amount)) fun _ => .deposited wallet := by
  apply perform
  intro app _ hinv hpre hagrees
  obtain ⟨haccount, hbalance⟩ := hseen app.log hpre
  exact ⟨List.suffix_cons _ _, hinv.deposit haccount hagrees hfunding hbalance, amount, app.log,
    List.suffix_rfl⟩

theorem updateBalance
    (hstate : wallet.state = .waitingForFirstDeposit ∨ wallet.state = .notEnoughFunds) :
    Ensures (.known wallet) (updateBalance wallet) (counted wallet) := by
  have hfunding : wallet.state.isFunding = true := by
    rcases hstate with hstate | hstate <;> rw [hstate] <;> rfl
  apply bind lift
  intro address
  have hask : ∀ (answer : Answer ℕ) observation log,
      (answer.toOption.map fun amount => Observation.balance wallet amount) = some observation →
      ((Fact.const (Trapping.unwrap wallet.address = .ok address)).and (.known wallet)).holds log →
        Justified log observation ∧ Quiet observation := by
    intro answer observation log hrecord hpre
    cases answer with
    | error error => cases hrecord
    | ok amount =>
        cases hrecord
        exact ⟨hpre.2 hstate, fun _ => ⟨rfl, rfl⟩, fun _ _ => Observation.noConfusion⟩
  apply bind (ask hask)
  intro answer
  cases answer with
  | error error => exact pure fun _ _ => trivial
  | ok amount =>
      have hread : ∀ {pre : Fact}, Ensures pre
          (Call.read fun store => store.accounts.find wallet.feeAccountID) fun found =>
            .const (∀ account, found = some account → account.id = wallet.feeAccountID) :=
        query_of fun _ _ _ _ _ _ hfound => (Table.mem_of_find hfound).2
      apply bind hread
      intro found
      cases found with
      | none =>
          apply pure
          intro log hpre
          have hseen := hpre.2.1 _ rfl
          exact ⟨⟨amount, hseen, by simp⟩, fun hpos => absurd hpos (by simp)⟩
      | some account =>
          refine bind (deposit hfunding ?_) fun _ => pure ?_
          · exact fun log hpre => ⟨hpre.1 account rfl, hpre.2.1 _ rfl⟩
          · exact fun log hpre => ⟨⟨amount, hpre.2.2.1 _ rfl, le_rfl⟩, fun _ => hpre.1⟩

theorem checkDidReceiveFirstDeposit :
    Ensures (.known wallet) (checkDidReceiveFirstDeposit wallet) fun result => .known result.1 := by
  unfold DeploymentDomainService.checkDidReceiveFirstDeposit
  split
  · rename_i hstate
    apply bind (updateBalance (.inl hstate))
    intro answer
    cases answer with
    | error error => exact pure fun _ hpre => hpre.2
    | ok balance =>
        simp only
        split
        · rename_i hpos
          apply bind ((proceed_waiting hstate).mono _ fun _ _ => id)
          · exact fun _ => pure fun _ hpre => hpre.1
          · exact fun _ hpre => ⟨hpre.1.2 hpos, hpre.2⟩
        · exact pure fun _ hpre => hpre.2
  · exact pure fun _ hpre => hpre

theorem checkHasMinimumAmount :
    Ensures (.known wallet) (checkHasMinimumAmount wallet) fun result => .known result.1 := by
  unfold DeploymentDomainService.checkHasMinimumAmount
  split
  · rename_i hstate
    apply bind (updateBalance (.inr hstate))
    intro answer
    cases answer with
    | error error => exact pure fun _ hpre => hpre.2
    | ok balance =>
        apply bind lift
        intro minimum
        split
        · rename_i hle
          apply bind ((proceed_funded hstate).mono _ fun _ _ => id)
          · exact fun _ => pure fun _ hpre => hpre.1
          · rintro log ⟨hminimum, ⟨⟨amount, hseen, hamount⟩, -⟩, -⟩
            have hminimum : wallet.minimumDeploymentTransactionAmount = some minimum :=
              Trapping.unwrap_eq_ok_iff.mp hminimum
            exact ⟨wallet, amount, minimum, hseen, rfl, rfl, hminimum, hle.trans hamount⟩
        · exact pure fun _ hpre => hpre.2.2
  · exact pure fun _ hpre => hpre

theorem checkHasSubmittedTransaction :
    Ensures (.known wallet) (checkHasSubmittedTransaction wallet) fun result => .known result.1 := by
  unfold DeploymentDomainService.checkHasSubmittedTransaction
  split
  · apply bind lift
    intro address
    apply bind query
    intro answer
    match answer with
    | .error error => exact pure fun _ hpre => hpre.2.2
    | .ok none => exact pure fun _ hpre => hpre.2.2
    | .ok (some hash) =>
        refine seq saveWallet fun _ => seq publish fun _ => pure ?_
        exact fun _ hpre => hpre.2.2
  · exact pure fun _ hpre => hpre

theorem checkHasMinedTransaction :
    Ensures (.known wallet) (checkHasMinedTransaction wallet) fun result => .known result.1 := by
  unfold DeploymentDomainService.checkHasMinedTransaction
  split
  · rename_i hstate
    split
    · exact pure fun _ hpre => hpre
    · have hask : ∀ (answer : Answer (Option Bool)) observation log,
          (answer.toOption.join.map fun success => Observation.receipt wallet success) =
            some observation → (Fact.known wallet).holds log →
            Justified log observation ∧ Quiet observation := by
        intro answer observation log hrecord _
        obtain ⟨success, -, rfl⟩ := Option.map_eq_some_iff.mp hrecord
        exact ⟨trivial, fun _ => ⟨rfl, rfl⟩, fun _ _ => Observation.noConfusion⟩
      apply bind (ask hask)
      intro answer
      match answer with
      | .error error => exact pure fun _ hpre => hpre.2
      | .ok none => exact pure fun _ hpre => hpre.2
      | .ok (some true) =>
          apply bind ((proceed_finished hstate).mono _ fun _ _ => id)
          · exact fun _ => pure fun _ hpre => hpre.1
          · exact fun _ hpre => hpre.1 _ rfl
      | .ok (some false) => exact bind cancel fun _ => pure fun _ hpre => hpre.1
  · exact pure fun _ hpre => hpre

theorem performCheck {check : Check} :
    Ensures (.known wallet) (DeploymentDomainService.perform check wallet)
      fun result => .known result.1 := by
  cases check with
  | didReceiveFirstDeposit => exact checkDidReceiveFirstDeposit
  | hasMinimumAmount => exact checkHasMinimumAmount
  | hasSubmittedTransaction => exact checkHasSubmittedTransaction
  | hasMinedTransaction => exact checkHasMinedTransaction

/-- The block of the creation is known. -/
theorem forceFinalizeDeployment :
    Ensures (.seen (.block wallet)) (forceFinalizeDeployment wallet) .known := by
  apply seq updateRepeaters
  intro _
  refine of_left (enter_ready ?_) (by decide) (by decide)
  exact fun app hpre _ => .inr ⟨wallet, hpre, rfl, rfl⟩

theorem repetition {repeater : ℕ} {check : Check} :
    Ensures (.known wallet) (repetition repeater check wallet)
      fun outcome => .known outcome.wallet := by
  apply bind lift
  intro address
  have hask : ∀ (answer : Option ℕ) observation log,
      (answer.map fun _ => Observation.block wallet) = some observation →
      ((Fact.const (Trapping.unwrap wallet.address = .ok address)).and (.known wallet)).holds log →
        Justified log observation ∧ Quiet observation := by
    intro answer observation log hrecord _
    obtain ⟨block, -, rfl⟩ := Option.map_eq_some_iff.mp hrecord
    exact ⟨trivial, fun _ => ⟨rfl, rfl⟩, fun _ _ => Observation.noConfusion⟩
  apply bind (ask hask)
  intro answer
  cases answer with
  | some block =>
      apply bind (forceFinalizeDeployment.mono _ fun _ _ => id)
      · exact fun _ => pure fun _ hpre => hpre.1
      · exact fun _ hpre => hpre.1 _ rfl
  | none =>
      apply bind (performCheck.mono _ fun _ _ => id)
      · rintro ⟨wallet', result⟩
        cases result with
        | error error => exact pure fun _ hpre => hpre.1
        | ok stop =>
            cases stop with
            | false => exact pure fun _ hpre => hpre.1
            | true => exact seq updateRepeaters fun _ => pure fun _ hpre => hpre.1
      · exact fun _ hpre => hpre.2.2

theorem round {following : Wallet → Call Unit}
    (hnext : ∀ wallet, Ensures (.known wallet) (following wallet) fun _ => .top)
    {repeater : ℕ} {check : Check} :
    Ensures (.known wallet) (round following repeater check wallet) fun _ => .top := by
  apply seq updateRepeaters
  intro _
  apply bind repetition
  intro outcome
  cases outcome.error with
  | some error => exact handleError
  | none =>
      apply seq query
      intro stopped
      cases stopped with
      | true => exact (hnext outcome.wallet).mono (fun _ hpre => hpre.1) fun _ _ => id
      | false =>
          apply seq updateRepeaters
          intro _
          apply update_of
          intro app hpre
          refine ⟨rfl, fun _ _ h => h, fun _ _ h => .inl h, ?_⟩
          intro repeater' check' wallet' hjob
          rcases List.mem_append.mp hjob with hjob | hjob
          · exact .inl hjob
          · cases List.mem_singleton.mp hjob
            exact .inr hpre.1

theorem repeating {following : Wallet → Call Unit}
    (hnext : ∀ wallet, Ensures (.known wallet) (following wallet) fun _ => .top) {check : Check} :
    Ensures (.known wallet) (repeating following check wallet) fun _ => .top := by
  have hmake : Ensures (.known wallet)
      (Process.perform .elsewhere fun (app : App) (_ : Outside) =>
        (app.repeaters.states.length, { app with repeaters := app.repeaters.make }))
      fun _ => .top := by
    apply perform
    intro app _ hinv _ _
    have hframe : Frame app { app with repeaters := app.repeaters.make } :=
      ⟨rfl, fun _ _ h => h, fun _ _ h => .inl h, fun _ _ _ h => .inl h⟩
    exact ⟨List.suffix_rfl, hframe.invariant hinv, trivial⟩
  apply seq hmake
  exact fun _ => seq updateRepeaters fun _ => round hnext

theorem after {check : Check} : Ensures (.known wallet) (after check wallet) fun _ => .top := by
  unfold DeploymentDomainService.after
  split
  · split
    · exact done
    · exact repeating fun _ => done
  · exact done

/-! ### Handlers -/

variable {services : Services}

/-- A contract is asked for while the wallet is being deployed. -/
theorem prepareSafeCreationTransaction :
    Ensures pre (prepareSafeCreationTransaction services wallet) fun _ => .top := by
  have hquery : Ensures pre (Process.query (.preparing wallet) fun _ outside =>
      outside.deployment.createSafeCreationTransaction
        (creationRequest wallet outside.deployment.randomSaltNonce))
      fun _ => .const (wallet.state = .deploying) := query_of fun _ _ _ _ hstate => hstate
  apply bind hquery
  intro answer
  cases answer with
  | error error => exact done
  | ok response =>
      refine seq (write (fun _ => rfl) fun _ => rfl) fun _ => ?_
      by_cases hstate : wallet.state = .deploying
      · have hproceed : (withContract services wallet response).proceed =
            (withContract services wallet response).enter .waitingForFirstDeposit
              (some (.startedWaitingForFirstDeposit wallet.id)) := by
          simp only [Wallet.proceed, withContract, hstate]
        rw [hproceed]
        exact bind (enter_waiting hstate) fun _ => done
      · intro app _ hpre
        exact absurd hpre.1 hstate

/-- The creation is requested while the fee is known to have arrived. -/
theorem startSafeCreation : Ensures pre (startSafeCreation wallet) fun _ => .top := by
  apply bind lift
  intro address
  have hrequest : ∀ {pre : Fact}, Ensures pre (Process.perform (.requestingCreation wallet)
      fun (app : App) (outside : Outside) => (outside.deployment.startSafeCreation address,
        app.observe (.requestedCreation wallet.id)))
      fun _ => .const (wallet.state = .creationStarted) := by
    intro pre
    apply perform
    rintro app _ hinv _ ⟨hstate, stored, hfind, hstored, -⟩
    have hcreation := hstored.trans hstate
    have hfunding : stored.state.isFunding = true := by rw [hcreation]; rfl
    have hsaved := hinv.stored wallet.id stored hfind hfunding
    obtain ⟨entry, hentry, hterms⟩ := hinv.proper.entry hsaved hfunding
    have hfunded : FundedSinceEntered wallet.id app.log :=
      hinv.proper.fundedSinceEntered (Table.mem_of_find hfind).2 hsaved hentry hterms
        (hinv.funded hfind hcreation)
    have hquiet : Quiet (.requestedCreation wallet.id) := ⟨fun _ => ⟨rfl, rfl⟩, fun _ _ => Observation.noConfusion⟩
    exact ⟨List.suffix_cons _ _, hinv.observe hfunded hquiet, hstate⟩
  apply bind hrequest
  intro answer
  cases answer with
  | error error => exact done
  | ok _ =>
      by_cases hstate : wallet.state = .creationStarted
      · simp only [Wallet.proceed, hstate]
        exact bind (enter_plain rfl (by decide)) fun _ => done
      · intro app _ hpre
        exact absurd hpre.1 hstate

theorem waitUntilWalletIsReady :
    Ensures (.known wallet) (waitUntilWalletIsReady wallet) fun _ => .top := by
  unfold DeploymentDomainService.waitUntilWalletIsReady
  split
  · exact seq publish fun _ => after
  · exact repeating fun _ => after

theorem postProcessCreation : Ensures pre (postProcessCreation wallet) fun _ => .top := by
  apply seq query
  intro answer
  cases answer with
  | error error => exact done
  | ok _ =>
      apply bind lift
      intro paper
      apply bind lift
      intro derived
      refine seq (write (fun _ => rfl) fun _ => rfl) fun _ => ?_
      exact seq (write (fun _ => rfl) fun _ => rfl) fun _ => done

theorem action {kind : DeploymentEvent} :
    Ensures (.known wallet) (action services kind wallet) fun _ => .top := by
  cases kind with
  | deploymentStarted => exact seq prepareSafeCreationTransaction fun _ => handleError
  | startedWaitingForFirstDeposit => exact repeating fun _ => done
  | startedWaitingForRemainingFeeAmount => exact repeating fun _ => done
  | deploymentFunded => exact seq startSafeCreation fun _ => handleError
  | creationStarted => exact waitUntilWalletIsReady
  | walletCreated => exact seq postProcessCreation fun _ => handleError
  | walletCreationFailed => exact trap
  | deploymentAborted => exact updateRepeaters (f := fun repeaters => repeaters.enqueue _)

theorem start : Ensures pre start fun _ => .top := by
  have henqueue : ∀ {pre : Fact} {task : PublisherTask},
      Ensures pre (Process.update .elsewhere fun app => app.enqueue task) fun _ => .top :=
    update (fun _ => rfl) (fun _ => rfl) (fun _ => rfl) fun _ => rfl
  refine seq updateRepeaters fun _ => seq henqueue fun _ => ?_
  apply seq (each fun _ _ => henqueue)
  exact fun _ => seq query fun _ => each fun _ _ => resume

theorem executeInWallet {kind : DeploymentEvent} {walletID : WalletID} :
    Ensures pre (executeInWallet services kind walletID) fun _ => .top := by
  have hfind : Ensures pre (Call.findWallet walletID .elsewhere) fun found =>
      ⟨fun log => ∀ wallet, found = some wallet → Known wallet log,
        fun hsuffix h wallet hfound => (h wallet hfound).mono hsuffix⟩ :=
    query_of fun _ _ hinv _ _ _ hfound => hinv.known hfound
  apply bind hfind
  intro found
  cases found with
  | none => exact done
  | some wallet => exact action.mono (fun _ hpre => hpre.1 wallet rfl) fun _ _ => id

/-! ### The user -/

/-- A new account is empty. -/
theorem saveAccount {accountID : AccountID} :
    Ensures pre (AccountUpdateDomainService.saveAccount accountID) fun _ => .top := by
  apply update_of
  intro app _
  refine ⟨rfl, fun _ _ h => h, ?_, fun _ _ _ h => .inl h⟩
  intro found account hfind
  rw [App.modify_store, Table.find_save] at hfind
  split at hfind
  · cases hfind
    exact .inr rfl
  · exact .inl hfind

theorem createNewDraftWallet {account : ExternallyOwnedAccount} :
    Ensures pre (createNewDraftWallet services account) fun _ => .top := by
  refine seq (write (fun _ => rfl) fun _ => rfl) fun _ => seq query fun created => ?_
  have hdraft : Ensures pre (Process.update .elsewhere fun app =>
      (app.saveWallet (draftWallet created account.address)).observe (.begun created))
      fun _ => .top := by
    apply perform
    intro app _ hinv _ _
    have hsaved : Invariant (app.saveWallet (draftWallet created account.address)) :=
      hinv.saveWallet ⟨Bool.noConfusion, WalletState.noConfusion, WalletState.noConfusion,
        WalletState.noConfusion⟩
    have hquiet : Quiet (.begun created) := ⟨fun _ => ⟨rfl, rfl⟩, fun _ _ => Observation.noConfusion⟩
    refine ⟨?_, hsaved.observe trivial hquiet, trivial⟩
    exact (List.suffix_cons _ _).trans (List.suffix_cons _ _)
  refine seq hdraft fun _ => seq (write (fun _ => rfl) fun _ => rfl) fun _ => ?_
  exact @saveAccount _ ⟨Token.Ether.id, created⟩

theorem abortDeployment : Ensures pre abortDeployment fun _ => .top :=
  seq query fun _ => bind lift fun _ => bind cancel fun _ => saveWallet

theorem editSelectedWallet {change : Wallet → Wallet} :
    Ensures pre (editSelectedWallet change) fun _ => .top :=
  seq query fun _ => bind lift fun _ => saveWallet

/-! ### The synchronisation of accounts -/

open AccountUpdateDomainService (recorded)

/-- What is known of an amount and the wallet for which it was asked. -/
def asked (accountID : AccountID) : Answer (Option (Wallet × ℕ)) → Fact
  | .ok (some (object, amount)) =>
    (Fact.const (object.id = accountID.walletID)).and (.recorded (recorded accountID object amount))
  | _ => .top

theorem accountBalance {accountID : AccountID} :
    Ensures pre (AccountUpdateDomainService.balance accountID) (asked accountID) := by
  have hfind : Ensures pre (Call.findWallet accountID.walletID .elsewhere) fun found =>
      ⟨fun log => ∀ wallet, found = some wallet → wallet.id = accountID.walletID ∧
        (wallet.state.isFunding = true →
          ∃ entry ∈ entered wallet.id log, entry.address = wallet.address),
        fun hsuffix h wallet hfound => (h wallet hfound).imp_right fun hwaits hfunding =>
          (hwaits hfunding).imp fun _ hentry => ⟨(entered_suffix hsuffix).mem hentry.1, hentry.2⟩⟩ :=
    query_of fun _ _ hinv _ _ _ hfound => ⟨(Table.mem_of_find hfound).2, hinv.waits hfound⟩
  apply bind hfind
  intro found
  cases found with
  | none => exact pure fun _ _ => trivial
  | some wallet =>
      simp only
      cases wallet.address with
      | none => exact pure fun _ _ => trivial
      | some address =>
          refine bind (ask ?_) fun answer => ?_
          · intro answer observation log hrecord hpre
            obtain ⟨amount, -, hrecord⟩ := Option.bind_eq_some_iff.mp hrecord
            simp only [recorded] at hrecord
            split at hrecord
            · rename_i hdue
              cases hrecord
              exact ⟨(hpre.1 wallet rfl).2 hdue.1, fun _ => ⟨rfl, rfl⟩,
                fun _ _ => Observation.noConfusion⟩
            · cases hrecord
          · cases answer with
            | error error => exact pure fun _ _ => trivial
            | ok amount => exact pure fun _ hpre => ⟨(hpre.2.1 wallet rfl).1, hpre.1⟩

theorem updateAccount {accountID : AccountID} :
    Ensures pre (AccountUpdateDomainService.updateBalance accountID) fun _ => .top := by
  apply bind accountBalance
  intro answer
  match answer with
  | .error error => exact done
  | .ok none => exact done
  | .ok (some (object, amount)) =>
      have hread : ∀ {pre : Fact}, Ensures pre
          (Call.read fun store => store.accounts.find accountID) fun found =>
            .const (∀ account, found = some account → account.id = accountID) :=
        query_of fun _ _ _ _ _ _ hfound => (Table.mem_of_find hfound).2
      apply bind hread
      intro found
      cases found with
      | none => exact done
      | some account =>
          refine seq (perform fun app _ hinv hpre horderly => ?_) fun _ => done
          obtain ⟨haccount, ⟨hid, hrecorded⟩, -⟩ := hpre
          refine ⟨List.suffix_rfl, hinv.credit (haccount account rfl) hid horderly ?_, trivial⟩
          intro hfunding hfee
          exact hrecorded _ (if_pos ⟨hfunding, hfee⟩)

theorem updateAccounts {accountIDs : List AccountID} :
    Ensures pre (AccountUpdateDomainService.updateBalances accountIDs) fun _ => .top := by
  induction accountIDs with
  | nil => exact done
  | cons accountID rest ih =>
      apply seq updateAccount
      intro answer
      cases answer with
      | error error => exact done
      | ok _ => exact ih

theorem updateAccountBalance {token : Token} :
    Ensures pre (AccountUpdateDomainService.updateAccountBalance token) fun _ => .top := by
  refine seq query fun walletIDs => seq (each fun walletID _ => ?_) fun _ => updateAccounts
  refine bind lift fun accountID => seq query fun found => ?_
  cases found with
  | none => exact saveAccount
  | some account => exact done

theorem updateAccountsBalances :
    Ensures pre AccountUpdateDomainService.updateAccountsBalances fun _ => .top := by
  refine seq query fun whitelisted => seq query fun paymentTokens => seq query fun portfolio => ?_
  cases portfolio with
  | none => exact done
  | some walletIDs =>
      refine seq (each fun walletID _ => ?_) fun _ => seq query fun _ => updateAccounts
      refine seq query fun found => ?_
      cases found with
      | none => exact done
      | some wallet =>
          exact seq query fun _ => bind lift fun _ => each fun _ _ => saveAccount

end Ensures

/-! ## Runs -/

variable {services : Services}

/-- Before a start nothing is written; after it, the call keeps the invariant. -/
theorem starts_ensures {app app' : App} {call : Call Unit} (h : Starts services app call app')
    (hinv : Invariant app) :
    Frame app app' ∧ call.Sound funding (fun _ _ => True) app' := by
  have hsame : Frame app app :=
    ⟨rfl, fun _ _ h => h, fun _ _ h => .inl h, fun _ _ _ h => .inl h⟩
  have hplain : ∀ {call : Call Unit}, Ensures .top call (fun _ => .top) →
      Frame app app ∧ call.Sound funding (fun _ _ => True) app :=
    fun hcall => ⟨hsame, hcall app hinv trivial⟩
  cases h with
  | @job job hjob =>
      have hframe : Frame app { app with deployments := app.deployments.erase job } :=
        ⟨rfl, fun _ _ h => h, fun _ _ h => .inl h, fun _ _ _ h => .inl (List.mem_of_mem_erase h)⟩
      refine ⟨hframe, ?_⟩
      cases job with
      | handle event walletID =>
          have hcall : Ensures .top (executeInWallet services event walletID) fun _ => .top :=
            .executeInWallet
          exact hcall _ (hframe.invariant hinv) trivial
      | round repeater check wallet =>
          have hround : Ensures (.known wallet) (run services (.round repeater check wallet))
              fun _ => .top := by
            apply Ensures.seq .query
            intro stopped
            cases stopped with
            | true => exact .after
            | false => exact .round fun _ => .after
          exact hround _ (hframe.invariant hinv) (hinv.jobs repeater check wallet hjob)
      | start =>
          have hcall : Ensures .top start fun _ => .top := .start
          exact hcall _ (hframe.invariant hinv) trivial
  | start => exact hplain .start
  | createNewDraftWallet account => exact hplain .createNewDraftWallet
  | editSelectedWallet change same => exact hplain .editSelectedWallet
  | abortDeployment => exact hplain .abortDeployment
  | removeWallet removed => exact hplain .removeWallet
  | updateAccountBalance token =>
      exact hplain (Ensures.seq .updateAccountBalance fun _ => .done)
  | updateAccountsBalances => exact hplain (Ensures.seq .updateAccountsBalances fun _ => .done)

theorem moves_frame {app app' : App} (h : Moves app app') : Frame app app' := by
  cases h with
  | deliver =>
      refine ⟨rfl, fun _ _ h => h, fun _ _ h => .inl h, ?_⟩
      intro repeater check wallet hjob
      exact .inl (by simpa using hjob)
  | manage => exact ⟨rfl, fun _ _ h => h, fun _ _ h => .inl h, fun _ _ _ h => .inl h⟩

theorem Frame.rely {app app' : App} (h : Frame app app') : funding.rely app app' :=
  ⟨h.log ▸ List.suffix_rfl, h.invariant⟩

/-- In every run from repositories in which no fee is due, whose actions are orderly: the
creation of a contract is only requested for a wallet that was funded since it began to
wait, and a wallet only becomes ready after a receipt or a block. -/
theorem orderly_funded {store : Store} {config : Config}
    (hstore : ∀ wallet ∈ store.wallets.rows, wallet.state.isFunding = false)
    (hruns : (system services).Runs Orderly (fun _ => True) ⟨.ofStore store, []⟩ config) :
    NeverUnfunded config.state.log ∧ NeverUnfinished config.state.log := by
  have hinit : Invariant (.ofStore store) := by
    constructor
    · intro observation earlier hearlier
      exact absurd (List.suffix_nil.mp hearlier) (by simp)
    · intro walletID wallet hfind hfunding
      exact absurd (hfunding.symm.trans (hstore wallet (Table.mem_of_find hfind).1)) (by decide)
    · intro walletID wallet account hlast
      cases hlast
    · intro repeater check wallet hjob
      cases hjob
  have hrestart : ∀ app : App, Frame app app.restart := by
    intro app
    refine ⟨rfl, fun _ _ h => h, fun _ _ h => .inl h, ?_⟩
    intro repeater check wallet hjob
    cases hjob
  have hboot : ∀ app : App, Invariant app →
      appDidFinishLaunching.Sound funding (fun _ _ => True) app.restart := by
    intro app hinv
    have hcall : Ensures .top appDidFinishLaunching fun _ => .top := .appDidFinishLaunching
    exact hcall app.restart ((hrestart app).invariant hinv) trivial
  have hinvariant := @System.Runs.invariant _ _ _ (system services) funding Invariant
    (fun _ => True) (fun _ _ h => h) (fun _ _ hrely => hrely.2)
    (fun _ _ _ hstart hinv => (starts_ensures hstart hinv).imp_left Frame.rely)
    (fun _ _ hmove => (moves_frame hmove).rely) (fun app hinv => (hrestart app).invariant hinv)
    hboot
  have hproper := (hinvariant hruns hinit fun call hmem => absurd hmem List.not_mem_nil).1.proper
  exact ⟨hproper.neverUnfunded, hproper.neverUnfinished⟩

/-! ## A contract nobody has paid for -/

section Example

open SafeWallet.System (Runs Config.alive_nil Config.Alive Config.Alive.cons)
open RecoveryDomainService (offline offlineServices)

/-- The service was started three times before the first event was delivered. -/
def startedThrice : App :=
  deliver 30 (start.advance offline 12 (start.advance offline 12 startedOnce).2).2

/-- The next handler of the event has run. -/
def handled (address : ℕ) (actions : ℕ) (app : App) : App :=
  ((run offlineServices (.handle .deploymentStarted "wallet")).advance (offering address) actions
    { app with deployments :=
        app.deployments.erase (.handle .deploymentStarted "wallet") }).2

/-- All three handlers have run, and their events were delivered. -/
def handledThrice : App := deliver 3 (handled 23 5 (handled 22 6 (handled 21 5 startedThrice)))

/-- The creation was requested. -/
def requestedApp : App :=
  ((run offlineServices (.handle .deploymentFunded "wallet")).advance offline 2
    { handledThrice with deployments :=
        handledThrice.deployments.erase (.handle .deploymentFunded "wallet") }).2

/-- A run of calls, each of which was at its end before the next one began. -/
def Reached (guard : App → Place → Prop) (store : Store) (app : App) : Prop :=
  ∃ n, (system offlineServices).Runs guard (fun _ => True) ⟨.ofStore store, []⟩
    ⟨app, List.replicate n (.pure ())⟩

section Reached

variable {guard : App → Place → Prop} {store : Store} {app app' : App} {process : Call Unit}

theorem alive_replicate (app : App) (n : ℕ) :
    Config.Alive (⟨app, List.replicate n (.pure ())⟩ : Config) := by
  intro call hcall
  rw [List.eq_of_mem_replicate hcall]
  rfl

theorem Reached.call (h : Reached guard store app)
    (hstarts : Starts offlineServices app process app') (outside : Outside) (n : ℕ)
    (hallowed : process.Allowed guard outside n app')
    (hend : (process.advance outside n app').1 = .pure ()) :
    Reached guard store (process.advance outside n app').2 := by
  obtain ⟨m, hruns⟩ := h
  have hcall := hruns.trans (Runs.call outside n (alive_replicate app m) trivial hstarts hallowed)
  rw [hend] at hcall
  exact ⟨m + 1, hcall⟩

theorem Reached.deliver (h : Reached guard store app) (n : ℕ) :
    Reached guard store (deliver n app) := by
  obtain ⟨m, hruns⟩ := h
  exact ⟨m, hruns.trans (runs_deliver n (alive_replicate app m))⟩

end Reached

/-- A record without a balance is no record of a funded deployment. -/
theorem not_fundedSinceEntered {log : List Observation} {walletID : WalletID}
    (h : ∀ object amount, .balance object amount ∉ log) : ¬ FundedSinceEntered walletID log := by
  rintro ⟨-, wallet, -, object, amount, -, hmem, -⟩
  exact h object amount (List.takeWhile_subset _ hmem)

/-- Three starts in a row take a wallet to the creation of its contract, and nobody has
ever asked for a balance. -/
theorem startedThrice_unfunded :
    ∃ config, (system offlineServices).Runs (fun _ _ => True) (fun _ => True)
        ⟨.ofStore (storeWith deployingWallet), []⟩ config ∧
      ¬ (NeverUnfunded config.state.log ∧ NeverUnfinished config.state.log) := by
  have hall : ∀ (outside : Outside) (n : ℕ) (call : Call Unit) (app : App),
      call.Allowed (fun _ _ => True) outside n app :=
    Process.allowed_of_forall fun _ _ => trivial
  have hinit : Reached (fun _ _ => True) (storeWith deployingWallet)
      (.ofStore (storeWith deployingWallet)) := ⟨0, .refl⟩
  have honce := hinit.call .start offline 12 (hall _ _ _ _) rfl
  have htwice := honce.call .start offline 12 (hall _ _ _ _) rfl
  have hthrice := (htwice.call .start offline 12 (hall _ _ _ _) rfl).deliver 30
  have hjob : DeploymentJob.handle .deploymentStarted "wallet" ∈ startedThrice.deployments := by
    decide
  have hfirst := hthrice.call (.job hjob) (offering 21) 5 (hall _ _ _ _) rfl
  have hjob : DeploymentJob.handle .deploymentStarted "wallet" ∈
      (handled 21 5 startedThrice).deployments := by decide
  have hsecond := hfirst.call (.job hjob) (offering 22) 6 (hall _ _ _ _) rfl
  have hjob : DeploymentJob.handle .deploymentStarted "wallet" ∈
      (handled 22 6 (handled 21 5 startedThrice)).deployments := by decide
  have hthird := (hsecond.call (.job hjob) (offering 23) 5 (hall _ _ _ _) rfl).deliver 3
  have hjob : DeploymentJob.handle .deploymentFunded "wallet" ∈ handledThrice.deployments := by
    decide
  obtain ⟨n, hruns⟩ := hthird.call (.job hjob) offline 2 (hall _ _ _ _) rfl
  refine ⟨_, hruns, fun h => ?_⟩
  have hlog : requestedApp.log = .requestedCreation "wallet" :: handledThrice.log := rfl
  have hunseen : ∀ object amount, .balance object amount ∉ handledThrice.log := by
    intro object amount hmem
    simp [show handledThrice.log = [.published (.deploymentFunded "wallet"),
      .saved (some .notEnoughFunds)
        { waitingWallet with state := .creationStarted, address := some (.ofUInt 23) },
      .published (.startedWaitingForRemainingFeeAmount "wallet"),
      .saved (some .waitingForFirstDeposit)
        { waitingWallet with state := .notEnoughFunds, address := some (.ofUInt 22) },
      .published (.startedWaitingForFirstDeposit "wallet"),
      .saved (some .deploying) { waitingWallet with address := some (.ofUInt 21) },
      .published (.deploymentStarted "wallet"), .published (.deploymentStarted "wallet"),
      .published (.deploymentStarted "wallet")] from rfl] at hmem
  have hsuffix : (.requestedCreation "wallet" :: handledThrice.log) <:+ requestedApp.log :=
    hlog ▸ List.suffix_rfl
  exact not_fundedSinceEntered hunseen (h.1 _ _ hsuffix)

/-- The fee has arrived. -/
def paying : Outside :=
  { offline with deployment := { balance := fun _ _ => .ok 150 } }

/-- The wallet at the address it was given. -/
def offeredWallet : Wallet := { waitingWallet with address := some (.ofUInt 21) }

/-- The first round has seen the fee, and its event was delivered. -/
def paidApp : App :=
  deliver 1 ((run offlineServices (.handle .startedWaitingForFirstDeposit "wallet")).advance
    paying 13 { awaited with deployments :=
        awaited.deployments.erase (.handle .startedWaitingForFirstDeposit "wallet") }).2

/-- Started once, the wallet is created when its fee has arrived. -/
theorem startedOnce_funded :
    ∃ config, (system offlineServices).Runs Orderly (fun _ => True)
        ⟨.ofStore (storeWith deployingWallet), []⟩ config ∧
      config.state.log = .requestedCreation "wallet" :: paidApp.log ∧
      NeverUnfunded config.state.log ∧ NeverUnfinished config.state.log := by
  have hinit : Reached Orderly (storeWith deployingWallet)
      (.ofStore (storeWith deployingWallet)) := ⟨0, .refl⟩
  have hstarted := (hinit.call .start offline 12
    ⟨trivial, trivial, trivial, trivial, trivial, trivial, trivial, trivial, trivial, trivial,
      trivial, trivial, trivial⟩ rfl).deliver 10
  have hjob : DeploymentJob.handle .deploymentStarted "wallet" ∈ deliveredOnce.deployments := by
    decide
  have hmoving : Orderly (deliveredOnce.modify (addAddressBookEntry offlineServices (.ofUInt 21)))
      (.moving (withContract offlineServices deployingWallet (offer 21))
        .waitingForFirstDeposit) := by
    refine ⟨⟨deployingWallet, by decide, rfl, by decide⟩, fun _ => ?_⟩
    decide
  have hoffered := (hstarted.call (.job hjob) (offering 21) 5
    ⟨trivial, rfl, trivial, hmoving, trivial, trivial⟩ rfl).deliver 1
  have hjob : DeploymentJob.handle .startedWaitingForFirstDeposit "wallet" ∈
      awaited.deployments := by decide
  have hagrees : ∀ app : App, app.store.wallets.find "wallet" = some offeredWallet →
      Agrees app offeredWallet := fun _ hfind => ⟨offeredWallet, hfind, rfl, fun _ => rfl⟩
  have hpaid := (hoffered.call (.job hjob) paying 13
    ⟨trivial, trivial, trivial, trivial, trivial, trivial, trivial, hagrees _ (by decide), trivial,
      ⟨hagrees _ (by decide), fun h => by cases h⟩, trivial, trivial, trivial, trivial⟩
    rfl).deliver 1
  have hjob : DeploymentJob.handle .deploymentFunded "wallet" ∈ paidApp.deployments := by decide
  have hrequesting : Orderly paidApp
      (.requestingCreation { offeredWallet with state := .creationStarted }) :=
    ⟨rfl, { offeredWallet with state := .creationStarted }, by decide, rfl, fun _ => rfl⟩
  obtain ⟨n, hruns⟩ := hpaid.call (.job hjob) offline 2 ⟨trivial, hrequesting, trivial⟩ rfl
  have hstore : ∀ wallet ∈ (storeWith deployingWallet).wallets.rows,
      wallet.state.isFunding = false := by decide
  exact ⟨_, hruns, rfl, orderly_funded hstore hruns⟩

end Example

end DeploymentDomainService

end SafeWallet
