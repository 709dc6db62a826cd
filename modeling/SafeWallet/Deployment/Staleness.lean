/-
# Wallet objects that are out of date

The handlers and repeaters of the deployment service save the wallet object they
hold, whatever has become of the stored wallet since they read it. An object whose
deployment was aborted, or whose wallet was removed, brings the deployment back; an
object of another `start()` brings another address.

Runs are arbitrary interleavings of all calls. As long as every transition and every
request to create the contract is made with an object that still agrees with the
stored wallet, an aborted deployment stays aborted, a removed wallet stays removed,
and an address that was shown to the user stays the address.
-/

import SafeWallet.Deployment.DeploymentService
import SafeWallet.Recovery.FailedCheck

namespace SafeWallet

/-- The states after a wallet got its address. -/
def WalletState.isAssigned (state : WalletState) : Bool :=
  match state with
  | .waitingForFirstDeposit | .notEnoughFunds | .creationStarted | .finalizingDeployment
  | .readyToUse => true
  | _ => false

namespace DeploymentDomainService

/-! ## Objects that agree with the store -/

/-- The stored wallet is in the state of an object and has its address, which an object
gets while it is being deployed. -/
def UpToDate (app : App) (object : Wallet) : Prop :=
  ∃ stored, app.store.wallets.find object.id = some stored ∧ stored.state = object.state ∧
    (object.state = .deploying ∨ stored.address = object.address)

/-- What is saved or requested is up to date, and only `start()` moves a draft. -/
def Current (app : App) : Place → Prop
  | .moving object _ => object.state ≠ .draft ∧ UpToDate app object
  | .requestingCreation object => object.state ≠ .draft ∧ UpToDate app object
  | .starting object => UpToDate app object
  | .saving wallet => UpToDate app wallet
  | _ => True

/-! ## What happens to one wallet -/

/-- No deployment of the wallet is under way. -/
def Idle (row : Option Wallet) : Prop := ∀ wallet, row = some wallet → wallet.state = .draft

/-- The wallet has an address that was shown to the user. -/
def Assigned (address : Option Address) (row : Option Wallet) : Prop :=
  ∃ wallet, row = some wallet ∧ wallet.state.isAssigned = true ∧ wallet.address = address

/-- The wallet was not saved as a draft. -/
def NoDraft (walletID : WalletID) (recent : List Observation) : Prop :=
  ∀ previous wallet, .saved previous wallet ∈ recent → wallet.id = walletID →
    wallet.state ≠ .draft

/-- What became of a wallet's row while some observations were made: nothing starts by
itself, and an address is only lost together with the deployment. -/
structure Respects (walletID : WalletID) (recent : List Observation) (row row' : Option Wallet) :
    Prop where
  idle : .begun walletID ∉ recent → Idle row → Idle row' ∧ .requestedCreation walletID ∉ recent
  absent : .begun walletID ∉ recent → row = none → row' = none
  address : NoDraft walletID recent → ∀ address, row = none ∨ Assigned address row →
    row' = none ∨ Assigned address row'

variable {walletID : WalletID} {recent recent' : List Observation} {row row' row'' : Option Wallet}

theorem Respects.trans (h : Respects walletID recent row row')
    (h' : Respects walletID recent' row' row'') :
    Respects walletID (recent' ++ recent) row row'' where
  idle hbegun hidle := by
    obtain ⟨hbegun', hbegun⟩ := not_or.mp (mt List.mem_append.mpr hbegun)
    obtain ⟨hidle, hrequested⟩ := h.idle hbegun hidle
    obtain ⟨hidle, hrequested'⟩ := h'.idle hbegun' hidle
    exact ⟨hidle, fun hmem => (List.mem_append.mp hmem).elim hrequested' hrequested⟩
  absent hbegun habsent := by
    obtain ⟨hbegun', hbegun⟩ := not_or.mp (mt List.mem_append.mpr hbegun)
    exact h'.absent hbegun' (h.absent hbegun habsent)
  address hdraft address hrow := by
    have hsplit : NoDraft walletID recent' ∧ NoDraft walletID recent := by
      constructor
      · exact fun previous wallet hmem => hdraft previous wallet (List.mem_append_left _ hmem)
      · exact fun previous wallet hmem => hdraft previous wallet (List.mem_append_right _ hmem)
    exact h'.address hsplit.1 address (h.address hsplit.2 address hrow)

/-- A step that leaves the row alone or removes it, and observes nothing of weight. -/
theorem Respects.of_harmless (hrow : row' = row ∨ row' = none)
    (hrequested : .requestedCreation walletID ∉ recent) : Respects walletID recent row row' where
  idle _ hidle := by
    refine ⟨?_, hrequested⟩
    rcases hrow with rfl | rfl
    · exact hidle
    · intro _ hnone
      cases hnone
  absent _ habsent := by
    rcases hrow with rfl | rfl
    · exact habsent
    · rfl
  address _ address h := by
    rcases hrow with rfl | rfl
    · exact h
    · exact .inl rfl

/-- The row of a wallet. -/
def rowOf (walletID : WalletID) (app : App) : Option Wallet := app.store.wallets.find walletID

/-- The record grows, and the wallet's row changes accordingly. -/
def Lawful (walletID : WalletID) (app app' : App) : Prop :=
  ∃ recent, app'.log = recent ++ app.log ∧
    Respects walletID recent (rowOf walletID app) (rowOf walletID app')

theorem Lawful.refl (walletID : WalletID) (app : App) : Lawful walletID app app :=
  ⟨[], rfl, .of_harmless (.inl rfl) (by simp)⟩

theorem Lawful.trans {app app' app'' : App} (h : Lawful walletID app app')
    (h' : Lawful walletID app' app'') : Lawful walletID app app'' := by
  obtain ⟨recent, hlog, hrespects⟩ := h
  obtain ⟨recent', hlog', hrespects'⟩ := h'
  refine ⟨recent' ++ recent, ?_, hrespects.trans hrespects'⟩
  rw [hlog', hlog, List.append_assoc]

/-- All calls respect the wallet, if what they save is current. -/
def respecting (walletID : WalletID) : Discipline App Place where
  rely := Lawful walletID
  guarantee := Lawful walletID
  guard := Current
  rely_refl := Lawful.refl walletID
  rely_trans := Lawful.trans

/-! ## Calls that respect a wallet -/

/-- Whatever happens around it, the call respects the wallet. -/
def Behaves {α : Type} (walletID : WalletID) (call : Call α) : Prop :=
  ∀ app, call.Sound (respecting walletID) (fun _ _ => True) app

namespace Behaves

variable {α β : Type} {call : Call α} {place : Place}

theorem pure (a : α) : Behaves walletID (Process.pure a) := fun _ _ _ => trivial

theorem trap (reason : Trap) : Behaves walletID (Process.trap reason : Call α) :=
  fun _ => trivial

theorem bind {k : α → Call β} (h : Behaves walletID call) (hk : ∀ a, Behaves walletID (k a)) :
    Behaves walletID (call >>= k) := by
  intro app
  apply Process.Sound.bind
  apply (h app).mono
  exact fun a app' _ => hk a app'

theorem perform {f : App → Outside → α × App}
    (h : ∀ app outside, Current app place → Lawful walletID app (f app outside).2) :
    Behaves walletID (Process.perform place f) :=
  fun _ app' outside _ hcurrent => ⟨h app' outside hcurrent, fun _ _ => trivial⟩

theorem query {f : App → Outside → α} : Behaves walletID (Process.query place f) :=
  perform fun app _ _ => .refl walletID app

theorem lift (value : Trapping α) : Behaves walletID (Process.lift value : Call α) := by
  cases value with
  | error reason => exact trap reason
  | ok a => exact pure a

theorem each {bs : List β} {f : β → Call Unit} (h : ∀ b ∈ bs, Behaves walletID (f b)) :
    Behaves walletID (Process.each bs f) := by
  induction bs with
  | nil => exact pure ()
  | cons b rest ih =>
      apply bind (h b List.mem_cons_self)
      exact fun _ => ih fun b' hmem => h b' (List.mem_cons_of_mem b hmem)

/-- An update of what is neither recorded nor a wallet. -/
theorem update {f : App → App} (hlog : ∀ app, (f app).log = app.log)
    (hwallets : ∀ app, (f app).store.wallets = app.store.wallets) :
    Behaves walletID (Process.update place f) := by
  apply perform
  intro app _ _
  refine ⟨[], hlog app, .of_harmless (.inl ?_) (by simp)⟩
  simp only [rowOf, hwallets]

theorem write {f : Store → Store} (hwallets : ∀ store, (f store).wallets = store.wallets) :
    Behaves walletID (Call.write f) := update (fun _ => rfl) fun app => hwallets app.store

/-- Something that is read and recorded. -/
theorem ask {f : Outside → α} {record : α → Option Observation}
    (h : ∀ a, record a ≠ some (.requestedCreation walletID)) :
    Behaves walletID (Call.ask f record) := by
  apply perform
  intro app outside _
  have hne := h (f outside)
  cases hobservation : record (f outside) with
  | none => exact ⟨[], rfl, .of_harmless (.inl rfl) (by simp)⟩
  | some seen =>
      refine ⟨[seen], rfl, .of_harmless (.inl rfl) ?_⟩
      rw [List.mem_singleton]
      intro heq
      exact hne (by rw [hobservation, heq])

/-- Removing a row. -/
theorem removeWalletRow (removed : WalletID) :
    Behaves walletID (Call.write (Store.removeWalletRow removed)) := by
  apply perform
  intro app _ _
  refine ⟨[], rfl, .of_harmless ?_ (by simp)⟩
  simp only [rowOf, App.modify_store, Store.removeWalletRow, Table.find_remove]
  split
  · exact .inr rfl
  · exact .inl rfl

theorem publish (event : DomainEvent) : Behaves walletID (Call.publish event) := by
  apply perform
  intro app _ _
  exact ⟨[.published event], rfl, .of_harmless (.inl rfl) (by simp)⟩

/-- A wallet is saved over a stored one in the same state: its other version, unless
the new one is a draft, has an address that stays. -/
theorem lawful_saveWallet {app : App} {object wallet : Wallet} (hcurrent : UpToDate app object)
    (hid : wallet.id = object.id) (haddress : wallet.address = object.address)
    (hidle : object.state = .draft → wallet.state = .draft)
    (hstate : object.state.isAssigned = true →
      wallet.state.isAssigned = true ∨ wallet.state = .draft) :
    Lawful walletID app (app.saveWallet wallet) := by
  obtain ⟨stored, hfind, hstored, hsame⟩ := hcurrent
  refine ⟨[.saved ((app.store.wallets.find wallet.id).map Wallet.state) wallet], rfl, ?_⟩
  have hrow : rowOf walletID (app.saveWallet wallet) =
      if wallet.id = walletID then some wallet else rowOf walletID app := by
    simp [rowOf, Table.find_save]
  by_cases heq : wallet.id = walletID
  · have hbefore : rowOf walletID app = some stored := by rw [rowOf, ← heq, hid, hfind]
    rw [hrow, if_pos heq, hbefore]
    constructor
    · intro _ hdraft
      refine ⟨?_, by simp⟩
      rintro _ ⟨⟩
      exact hidle (hstored ▸ hdraft stored rfl)
    · intro _ hnone
      cases hnone
    · intro hdraft address h
      obtain ⟨_, hstored', hassigned, rfl⟩ := h.resolve_left (by simp)
      cases hstored'
      rw [hstored] at hassigned
      have hdeploying : object.state ≠ .deploying := by
        intro hdeploying
        rw [hdeploying] at hassigned
        cases hassigned
      right
      refine ⟨wallet, rfl, ?_, ?_⟩
      · exact (hstate hassigned).resolve_right (hdraft _ _ List.mem_cons_self heq)
      · rw [haddress, hsame.resolve_left hdeploying]
  · rw [hrow, if_neg heq]
    exact .of_harmless (.inl rfl) (by simp)

theorem saveWallet (wallet : Wallet) : Behaves walletID (Call.saveWallet wallet) := by
  apply perform
  intro app _ hcurrent
  exact lawful_saveWallet hcurrent rfl rfl id fun h => .inl h

/-- A transition of the state machine. -/
theorem enter {object : Wallet} {state : WalletState} {event : Option DomainEvent}
    (hstate : object.state.isAssigned = true → state.isAssigned = true ∨ state = .draft) :
    Behaves walletID (object.enter state event) := by
  unfold Wallet.enter
  have hsave : Behaves walletID (Process.update (.moving object state) fun app =>
      app.saveWallet { object with state := state }) := by
    apply perform
    rintro app _ ⟨hdraft, hcurrent⟩
    exact lawful_saveWallet hcurrent rfl rfl (fun h => absurd h hdraft) hstate
  apply bind hsave
  intro _
  cases event with
  | none => exact pure _
  | some event => exact bind (publish event) fun _ => pure _

theorem proceed (wallet : Wallet) : Behaves walletID wallet.proceed := by
  unfold Wallet.proceed
  split <;> rename_i hstate
  · exact enter (by simp [hstate, WalletState.isAssigned])
  · exact enter (by simp [hstate, WalletState.isAssigned])
  · unfold Wallet.proceedWithFirstDeposit
    split
    · exact trap _
    · apply bind query
      intro account
      cases account with
      | none => exact pure _
      | some account =>
          simp only
          split
          · exact enter fun _ => .inl rfl
          · exact enter fun _ => .inl rfl
  · exact enter fun _ => .inl rfl
  · exact enter fun _ => .inl rfl
  · exact enter fun _ => .inl rfl
  · exact pure _
  · exact enter (by simp [hstate, WalletState.isAssigned])
  · exact enter (by simp [hstate, WalletState.isAssigned])
  · exact enter fun _ => .inl rfl

theorem cancel (wallet : Wallet) : Behaves walletID wallet.cancel := by
  unfold Wallet.cancel
  split <;> rename_i hstate
  · exact pure _
  · exact pure _
  · exact pure _
  · exact enter fun _ => .inr rfl
  · exact enter fun _ => .inr rfl
  · exact enter fun _ => .inr rfl
  · exact enter fun _ => .inr rfl
  · exact bind (publish _) fun _ => pure _
  · exact enter (by simp [hstate, WalletState.isAssigned])
  · exact enter (by simp [hstate, WalletState.isAssigned])

/-- The deployment of a draft is begun. -/
theorem resumeDraft {wallet : Wallet} (hdraft : wallet.state = .draft) :
    Behaves walletID wallet.resumeDraft := by
  unfold Wallet.resumeDraft
  simp only
  split
  · split
    · apply bind _ fun _ => publish _
      apply perform
      intro app _ hcurrent
      obtain ⟨stored, hfind, hstored, -⟩ := hcurrent
      set deployed : Wallet := { wallet with
        state := .deploying, confirmationCount := wallet.allOwners.length - 2 }
      refine ⟨[.begun wallet.id,
        .saved ((app.store.wallets.find deployed.id).map Wallet.state) deployed], rfl, ?_⟩
      have hrow : rowOf walletID ((app.saveWallet deployed).observe (.begun wallet.id)) =
          if wallet.id = walletID then some deployed else rowOf walletID app := by
        simp [rowOf, Table.find_save, deployed]
      by_cases heq : wallet.id = walletID
      · have hbefore : rowOf walletID app = some stored := by rw [rowOf, ← heq, hfind]
        rw [hrow, if_pos heq, hbefore]
        constructor
        · exact fun hbegun => absurd (heq ▸ List.mem_cons_self) hbegun
        · exact fun hbegun => absurd (heq ▸ List.mem_cons_self) hbegun
        · intro _ address h
          obtain ⟨_, hstored', hassigned, -⟩ := h.resolve_left (by simp)
          cases hstored'
          rw [hstored, hdraft] at hassigned
          cases hassigned
      · rw [hrow, if_neg heq]
        exact .of_harmless (.inl rfl) (by simp)
    · exact trap _
  · exact trap _

theorem resume (wallet : Wallet) : Behaves walletID wallet.resume := by
  unfold Wallet.resume
  split
  · exact resumeDraft ‹_›
  · exact publish _
  · exact publish _
  · exact publish _
  · exact publish _
  · exact publish _
  · exact pure _

/-! ### Removing wallets -/

theorem removeAccounts (removed : WalletID) :
    Behaves walletID (WalletDomainService.removeAccounts removed) :=
  bind query fun _ => each fun _ _ => write fun _ => rfl

theorem removeTransactions (removed : WalletID) :
    Behaves walletID (WalletDomainService.removeTransactions removed) := by
  apply bind query
  intro transactions
  apply each
  exact fun _ _ => bind (write fun _ => rfl) fun _ => write fun _ => rfl

theorem removeWalletID (removed : WalletID) :
    Behaves walletID (WalletDomainService.removeWalletID removed) := by
  refine bind (write fun _ => rfl) fun _ => ?_
  apply bind (removeAccounts removed)
  exact fun _ => removeTransactions removed

theorem removeWallet (removed : WalletID) :
    Behaves walletID (WalletDomainService.removeWallet removed) := by
  apply bind query
  intro found
  cases found with
  | none => exact removeWalletID removed
  | some wallet =>
      apply bind _ fun _ => removeWalletID removed
      apply bind (removeWalletRow wallet.id)
      intro _
      refine bind (each fun _ _ => write fun _ => rfl) fun _ => ?_
      cases wallet.address with
      | none => exact pure ()
      | some address => exact bind query fun _ => each fun _ _ => write fun _ => rfl

theorem repairModel_wallets (store : Store) :
    (WalletApplication.repairModel store).wallets = store.wallets := by
  unfold WalletApplication.repairModel
  split <;> rfl

theorem appDidFinishLaunching : Behaves walletID appDidFinishLaunching := by
  have hportfolio : Behaves walletID WalletApplication.cleanUpPortfolio := by
    apply bind query
    intro stale
    apply each
    intro removed _
    refine bind (write fun _ => rfl) fun _ => ?_
    exact bind (removeAccounts removed) fun _ => removeTransactions removed
  have hdrafts : Behaves walletID WalletApplication.cleanUpDrafts :=
    bind query fun _ => bind (each fun draft _ => removeWallet draft.id) fun _ => hportfolio
  apply bind hdrafts
  intro _
  apply bind (write repairModel_wallets)
  exact fun _ => update (fun _ => rfl) fun _ => rfl

/-! ### Repeaters -/

theorem updateRepeaters (f : Repeaters → Repeaters) : Behaves walletID (updateRepeaters f) :=
  update (fun _ => rfl) fun _ => rfl

theorem handleError (outcome : Outcome) : Behaves walletID (handleError outcome) := by
  unfold DeploymentDomainService.handleError
  split
  · exact bind (cancel _) fun _ => pure ()
  · exact pure ()

theorem updateBalance (wallet : Wallet) : Behaves walletID (updateBalance wallet) := by
  apply bind (lift _)
  intro address
  apply bind (ask fun answer => by cases answer <;> simp)
  intro answer
  cases answer with
  | error error => exact pure _
  | ok balance =>
      apply bind query
      intro account
      cases account with
      | none => exact pure _
      | some account =>
          refine bind (perform fun app _ _ => ?_) fun _ => pure _
          exact ⟨[.deposited wallet balance], rfl, .of_harmless (.inl rfl) (by simp)⟩

theorem checkDidReceiveFirstDeposit (wallet : Wallet) :
    Behaves walletID (checkDidReceiveFirstDeposit wallet) := by
  unfold DeploymentDomainService.checkDidReceiveFirstDeposit
  split
  · apply bind (updateBalance wallet)
    intro answer
    cases answer with
    | error error => exact pure _
    | ok balance =>
        simp only
        split
        · exact bind (proceed wallet) fun _ => pure _
        · exact pure _
  · exact pure _

theorem checkHasMinimumAmount (wallet : Wallet) :
    Behaves walletID (checkHasMinimumAmount wallet) := by
  unfold DeploymentDomainService.checkHasMinimumAmount
  split
  · apply bind (updateBalance wallet)
    intro answer
    cases answer with
    | error error => exact pure _
    | ok balance =>
        apply bind (lift _)
        intro minimum
        split
        · exact bind (proceed wallet) fun _ => pure _
        · exact pure _
  · exact pure _

theorem checkHasSubmittedTransaction (wallet : Wallet) :
    Behaves walletID (checkHasSubmittedTransaction wallet) := by
  unfold DeploymentDomainService.checkHasSubmittedTransaction
  split
  · apply bind (lift _)
    intro address
    apply bind query
    intro answer
    match answer with
    | .error error => exact pure _
    | .ok none => exact pure _
    | .ok (some hash) =>
        apply bind (saveWallet _)
        exact fun _ => bind (publish _) fun _ => pure _
  · exact pure _

theorem checkHasMinedTransaction (wallet : Wallet) :
    Behaves walletID (checkHasMinedTransaction wallet) := by
  unfold DeploymentDomainService.checkHasMinedTransaction
  split
  · split
    · exact pure _
    · apply bind (ask fun answer => by cases answer.toOption.join <;> simp)
      intro answer
      match answer with
      | .error error => exact pure _
      | .ok none => exact pure _
      | .ok (some true) => exact bind (proceed wallet) fun _ => pure _
      | .ok (some false) => exact bind (cancel wallet) fun _ => pure _
  · exact pure _

theorem performCheck (check : Check) (wallet : Wallet) :
    Behaves walletID (DeploymentDomainService.perform check wallet) := by
  cases check with
  | didReceiveFirstDeposit => exact checkDidReceiveFirstDeposit wallet
  | hasMinimumAmount => exact checkHasMinimumAmount wallet
  | hasSubmittedTransaction => exact checkHasSubmittedTransaction wallet
  | hasMinedTransaction => exact checkHasMinedTransaction wallet

theorem repetition (repeater : ℕ) (check : Check) (wallet : Wallet) :
    Behaves walletID (repetition repeater check wallet) := by
  apply bind (lift _)
  intro address
  apply bind (ask fun answer => by cases answer <;> simp)
  intro block
  cases block with
  | some block =>
      apply bind _ fun _ => pure _
      exact bind (updateRepeaters _) fun _ => enter fun _ => .inl rfl
  | none =>
      apply bind (performCheck check wallet)
      rintro ⟨wallet', answer⟩
      cases answer with
      | error error => exact pure _
      | ok stop =>
          cases stop with
          | false => exact pure _
          | true => exact bind (updateRepeaters _) fun _ => pure _

theorem round {next : Wallet → Call Unit} (hnext : ∀ wallet, Behaves walletID (next wallet))
    (repeater : ℕ) (check : Check) (wallet : Wallet) :
    Behaves walletID (round next repeater check wallet) := by
  apply bind (updateRepeaters _)
  intro _
  apply bind (repetition repeater check wallet)
  intro outcome
  cases outcome.error with
  | some error => exact handleError outcome
  | none =>
      apply bind query
      intro stopped
      cases stopped with
      | true => exact hnext _
      | false => exact bind (updateRepeaters _) fun _ => update (fun _ => rfl) fun _ => rfl

theorem repeating {next : Wallet → Call Unit} (hnext : ∀ wallet, Behaves walletID (next wallet))
    (check : Check) (wallet : Wallet) : Behaves walletID (repeating next check wallet) := by
  have hmake : Behaves walletID (Process.perform .elsewhere fun (app : App) (_ : Outside) =>
      (app.repeaters.states.length, { app with repeaters := app.repeaters.make })) := by
    apply perform
    intro app _ _
    exact ⟨[], rfl, .of_harmless (.inl rfl) (by simp)⟩
  apply bind hmake
  intro repeater
  exact bind (updateRepeaters _) fun _ => round hnext repeater check wallet

theorem after (check : Check) (wallet : Wallet) : Behaves walletID (after check wallet) := by
  unfold DeploymentDomainService.after
  split
  · split
    · exact pure _
    · exact repeating (fun _ => pure _) _ _
  · exact pure _

/-! ### Handlers -/

variable (services : Services)

theorem prepareSafeCreationTransaction (wallet : Wallet) :
    Behaves walletID (prepareSafeCreationTransaction services wallet) := by
  apply bind query
  intro answer
  cases answer with
  | error error => exact pure _
  | ok response =>
      refine bind (write fun _ => rfl) fun _ => ?_
      exact bind (proceed _) fun _ => pure _

/-- The creation is requested for a wallet that is being deployed. -/
theorem startSafeCreation (wallet : Wallet) : Behaves walletID (startSafeCreation wallet) := by
  apply bind (lift _)
  intro address
  have hrequest : Behaves walletID (Process.perform (.requestingCreation wallet)
      fun (app : App) (outside : Outside) => (outside.deployment.startSafeCreation address,
        app.observe (.requestedCreation wallet.id))) := by
    apply perform
    rintro app outside ⟨hdraft, stored, hfind, hstored, -⟩
    refine ⟨[.requestedCreation wallet.id], rfl, ?_⟩
    by_cases heq : wallet.id = walletID
    · have hrow : rowOf walletID app = some stored := by rw [rowOf, ← heq, hfind]
      constructor
      · intro _ hidle
        exact absurd (hstored ▸ hidle stored hrow) hdraft
      · exact fun _ h => h
      · exact fun _ _ h => h
    · apply Respects.of_harmless (.inl rfl)
      simpa using Ne.symm heq
  apply bind hrequest
  intro answer
  cases answer with
  | error error => exact pure _
  | ok _ => exact bind (proceed wallet) fun _ => pure _

theorem waitUntilWalletIsReady (wallet : Wallet) :
    Behaves walletID (waitUntilWalletIsReady wallet) := by
  unfold DeploymentDomainService.waitUntilWalletIsReady
  split
  · exact bind (publish _) fun _ => after _ wallet
  · exact repeating (after _) _ wallet

theorem postProcessCreation (wallet : Wallet) :
    Behaves walletID (postProcessCreation wallet) := by
  apply bind query
  intro answer
  cases answer with
  | error error => exact pure _
  | ok _ =>
      apply bind (lift _)
      intro paper
      apply bind (lift _)
      intro derived
      refine bind (write fun _ => rfl) fun _ => ?_
      exact bind (write fun _ => rfl) fun _ => pure _

theorem action (event : DeploymentEvent) (wallet : Wallet) :
    Behaves walletID (action services event wallet) := by
  cases event with
  | deploymentStarted => exact bind (prepareSafeCreationTransaction services wallet) handleError
  | startedWaitingForFirstDeposit => exact repeating (fun _ => pure _) _ wallet
  | startedWaitingForRemainingFeeAmount => exact repeating (fun _ => pure _) _ wallet
  | deploymentFunded => exact bind (startSafeCreation wallet) handleError
  | creationStarted => exact waitUntilWalletIsReady wallet
  | walletCreated => exact bind (postProcessCreation wallet) handleError
  | walletCreationFailed => exact trap _
  | deploymentAborted => exact updateRepeaters fun repeaters => repeaters.enqueue _

theorem start : Behaves walletID start := by
  refine bind (updateRepeaters _) fun _ => ?_
  refine bind (update (fun _ => rfl) fun _ => rfl) fun _ => ?_
  refine bind (each fun _ _ => update (fun _ => rfl) fun _ => rfl) fun _ => ?_
  exact bind query fun _ => each fun wallet _ => resume wallet

theorem run (job : DeploymentJob) : Behaves walletID (run services job) := by
  cases job with
  | handle event removed =>
      apply bind query
      intro found
      cases found with
      | none => exact pure _
      | some wallet => exact action services event wallet
  | round repeater check wallet =>
      apply bind query
      intro stopped
      cases stopped with
      | true => exact after check wallet
      | false => exact round (after check) repeater check wallet
  | start => exact start

/-! ### The user -/

theorem createNewDraftWallet (account : ExternallyOwnedAccount) :
    Behaves walletID (createNewDraftWallet services account) := by
  refine bind (write fun _ => rfl) fun _ => ?_
  apply bind query
  intro created
  refine bind ?_ fun _ => bind (write fun _ => rfl) fun _ => write fun _ => rfl
  apply perform
  intro app _ _
  set draft := draftWallet created account.address
  refine ⟨[.begun created, .saved ((app.store.wallets.find draft.id).map Wallet.state) draft],
    rfl, ?_⟩
  have hrow : rowOf walletID ((app.saveWallet draft).observe (.begun created)) =
      if created = walletID then some draft else rowOf walletID app := by
    simp only [rowOf, App.observe_store, App.saveWallet_wallets, Table.find_save]
    rfl
  by_cases heq : created = walletID
  · constructor
    · exact fun hbegun => absurd (heq ▸ List.mem_cons_self) hbegun
    · exact fun hbegun => absurd (heq ▸ List.mem_cons_self) hbegun
    · intro hdraft
      exact absurd rfl (hdraft _ draft (List.mem_cons_of_mem _ List.mem_cons_self) heq)
  · rw [hrow, if_neg heq]
    exact .of_harmless (.inl rfl) (by simp)

theorem abortDeployment : Behaves walletID abortDeployment :=
  bind query fun _ => bind (lift _) fun wallet => bind (cancel wallet) saveWallet

theorem editSelectedWallet (change : Wallet → Wallet) :
    Behaves walletID (editSelectedWallet change) :=
  bind query fun _ => bind (lift _) fun wallet => saveWallet (change wallet)

/-! ### The synchronisation of accounts -/

theorem updateAccount (accountID : AccountID) :
    Behaves walletID (AccountUpdateDomainService.updateBalance accountID) := by
  have hbalance : Behaves walletID (AccountUpdateDomainService.balance accountID) := by
    apply bind query
    intro found
    cases found with
    | none => exact pure _
    | some wallet =>
        simp only
        cases wallet.address with
        | none => exact pure _
        | some address =>
            refine bind (ask fun answer hrecord => ?_) fun answer => ?_
            · obtain ⟨amount, -, hrecord⟩ := Option.bind_eq_some_iff.mp hrecord
              simp [AccountUpdateDomainService.recorded] at hrecord
            · cases answer <;> exact pure _
  apply bind hbalance
  intro answer
  match answer with
  | .error error => exact pure _
  | .ok none => exact pure _
  | .ok (some (wallet, amount)) =>
      apply bind query
      intro found
      cases found with
      | none => exact pure _
      | some account => exact bind (update (fun _ => rfl) fun _ => rfl) fun _ => pure _

theorem updateAccounts (accountIDs : List AccountID) :
    Behaves walletID (AccountUpdateDomainService.updateBalances accountIDs) := by
  induction accountIDs with
  | nil => exact pure _
  | cons accountID rest ih =>
      apply bind (updateAccount accountID)
      intro answer
      cases answer with
      | error error => exact pure _
      | ok _ => exact ih

theorem updateAccountBalance (token : Token) :
    Behaves walletID (AccountUpdateDomainService.updateAccountBalance token) := by
  refine bind query fun walletIDs => bind (each fun _ _ => ?_) fun _ => updateAccounts _
  refine bind (lift _) fun accountID => bind query fun found => ?_
  cases found with
  | none => exact write fun _ => rfl
  | some account => exact pure _

theorem updateAccountsBalances :
    Behaves walletID AccountUpdateDomainService.updateAccountsBalances := by
  refine bind query fun whitelisted => bind query fun paymentTokens => bind query fun portfolio => ?_
  cases portfolio with
  | none => exact pure _
  | some walletIDs =>
      refine bind (each fun _ _ => ?_) fun _ => bind query fun _ => updateAccounts _
      refine bind query fun found => ?_
      cases found with
      | none => exact pure _
      | some wallet =>
          exact bind query fun _ => bind (lift _) fun _ => each fun _ _ => write fun _ => rfl

end Behaves

/-! ## Runs -/

variable {services : Services}

theorem starts_behaves {app app' : App} {call : Call Unit} (h : Starts services app call app') :
    Lawful walletID app app' ∧ Behaves walletID call := by
  cases h with
  | job hjob =>
      exact ⟨⟨[], rfl, .of_harmless (.inl rfl) (by simp)⟩, .run services _⟩
  | start => exact ⟨.refl _ _, .start⟩
  | createNewDraftWallet account => exact ⟨.refl _ _, .createNewDraftWallet services account⟩
  | editSelectedWallet change same => exact ⟨.refl _ _, .editSelectedWallet change⟩
  | abortDeployment => exact ⟨.refl _ _, .abortDeployment⟩
  | removeWallet removed => exact ⟨.refl _ _, .removeWallet removed⟩
  | updateAccountBalance token =>
      exact ⟨.refl _ _, .bind (.updateAccountBalance token) fun _ => .pure _⟩
  | updateAccountsBalances =>
      exact ⟨.refl _ _, .bind .updateAccountsBalances fun _ => .pure _⟩

theorem moves_lawful {app app' : App} (h : Moves app app') : Lawful walletID app app' := by
  cases h with
  | deliver => exact ⟨[], rfl, .of_harmless (.inl rfl) (by simp)⟩
  | manage => exact ⟨[], rfl, .of_harmless (.inl rfl) (by simp)⟩

/-- A configuration of the deployment system. -/
abbrev Config := System.Config App Outside Place

/-- Whatever a run has come to, what follows respects every wallet. -/
theorem runs_lawful {store : Store} {config config' : Config} (walletID : WalletID)
    (hbefore : (system services).Runs Current (fun _ => True) ⟨.ofStore store, []⟩ config)
    (hafter : (system services).Runs Current (fun _ => True) config config') :
    Lawful walletID config.state config'.state := by
  have hrestart : ∀ app : App, Lawful walletID app app.restart :=
    fun app => ⟨[], rfl, .of_harmless (.inl rfl) (by simp)⟩
  have hstarts : ∀ app call app', (system services).starts app call app' →
      Lawful walletID app app' ∧ call.Sound (respecting walletID) (fun _ _ => True) app' := by
    intro app call app' h
    obtain ⟨hlawful, hbehaves⟩ := starts_behaves h
    exact ⟨hlawful, hbehaves app'⟩
  have hrule := fun inv => @System.Runs.invariant _ _ _ (system services) (respecting walletID) inv
    (fun _ => True) (fun _ _ h => h)
  have hsound := (hrule (fun _ => True) (fun _ _ _ _ => trivial)
    (fun _ _ _ hstart _ => hstarts _ _ _ hstart) (fun _ _ h => moves_lawful h) (fun _ _ => trivial)
    (fun app _ => Behaves.appDidFinishLaunching app.restart) hbefore trivial
    (fun _ hmem => absurd hmem List.not_mem_nil)).2
  exact (hrule (Lawful walletID config.state) (fun _ _ hrely hinv => hinv.trans hrely)
    (fun _ _ _ hstart _ => hstarts _ _ _ hstart) (fun _ _ h => moves_lawful h)
    (fun app hinv => hinv.trans (hrestart app))
    (fun app _ => Behaves.appDidFinishLaunching app.restart) hafter (.refl _ _) hsound).1

/-- From one configuration to a later one, nothing revives a deployment that is not under
way: unless the user begins it again, a draft stays a draft until it is removed, an absent
wallet stays absent, and its creation is not requested. Every `start()` that moves the draft
counts as beginning it again, also one that the user meant for another wallet. -/
def StaysAborted (walletID : WalletID) (config config' : Config) : Prop :=
  ∀ recent, config'.state.log = recent ++ config.state.log → .begun walletID ∉ recent →
    (∀ draft, config.state.store.wallets.find walletID = some draft → draft.state = .draft →
      (∀ wallet, config'.state.store.wallets.find walletID = some wallet →
        wallet.state = .draft) ∧
      .requestedCreation walletID ∉ recent) ∧
    (config.state.store.wallets.find walletID = none →
      config'.state.store.wallets.find walletID = none ∧ .requestedCreation walletID ∉ recent)

/-- From one configuration to a later one, a wallet that waited for its first deposit
keeps its address until it is a draft again. -/
def KeepsAddress (walletID : WalletID) (config config' : Config) : Prop :=
  ∀ recent, config'.state.log = recent ++ config.state.log → NoDraft walletID recent →
    ∀ waiting, config.state.store.wallets.find walletID = some waiting →
      waiting.state = .waitingForFirstDeposit →
      ∀ wallet, config'.state.store.wallets.find walletID = some wallet →
        wallet.address = waiting.address

/-- With objects that are up to date, an aborted or removed deployment stays so. -/
theorem current_staysAborted {store : Store} {config config' : Config} (walletID : WalletID)
    (hbefore : (system services).Runs Current (fun _ => True) ⟨.ofStore store, []⟩ config)
    (hafter : (system services).Runs Current (fun _ => True) config config') :
    StaysAborted walletID config config' := by
  obtain ⟨recent, hlog, hrespects⟩ := runs_lawful walletID hbefore hafter
  intro recent' hlog' hbegun
  obtain rfl : recent' = recent := List.append_cancel_right (hlog'.symm.trans hlog)
  constructor
  · intro draft hfind hdraft
    apply hrespects.idle hbegun
    intro wallet hwallet
    rw [rowOf, hfind] at hwallet
    cases hwallet
    exact hdraft
  · intro habsent
    refine ⟨hrespects.absent hbegun habsent, (hrespects.idle hbegun ?_).2⟩
    intro wallet hwallet
    rw [rowOf, habsent] at hwallet
    cases hwallet

/-- With objects that are up to date, the address stays. -/
theorem current_keepsAddress {store : Store} {config config' : Config} (walletID : WalletID)
    (hbefore : (system services).Runs Current (fun _ => True) ⟨.ofStore store, []⟩ config)
    (hafter : (system services).Runs Current (fun _ => True) config config') :
    KeepsAddress walletID config config' := by
  obtain ⟨recent, hlog, hrespects⟩ := runs_lawful walletID hbefore hafter
  intro recent' hlog' hdraft waiting hfind hwaiting wallet hwallet
  obtain rfl : recent' = recent := List.append_cancel_right (hlog'.symm.trans hlog)
  have hassigned : Assigned waiting.address (rowOf walletID config.state) :=
    ⟨waiting, hfind, by rw [hwaiting]; rfl, rfl⟩
  rcases hrespects.address hdraft _ (.inr hassigned) with hnone | ⟨wallet', hwallet', -, haddress⟩
  · rw [rowOf, hwallet] at hnone
    cases hnone
  · rw [rowOf, hwallet] at hwallet'
    cases hwallet'
    exact haddress

/-! ## A deployment that comes back -/

section Example

open SafeWallet.System (Runs Config.alive_nil Config.Alive Config.Alive.cons)
open RecoveryDomainService (offline offlineServices)

/-- The publisher works off `n` tasks. -/
def deliver : ℕ → App → App
  | 0, app => app
  | n + 1, app =>
    match app.publisher.next with
    | none => app
    | some (publisher, jobs) => deliver n { app with
        publisher := publisher
        jobs := app.jobs ++ jobs
        deployments := app.deployments ++
          app.publisher.handlers.map fun handler => .handle handler.1 handler.2 }

theorem runs_deliver {guard : App → Place → Prop} {running : List (Call Unit)} (n : ℕ) {app : App}
    (halive : Config.Alive ⟨app, running⟩) :
    (system services).Runs guard (fun _ => True) ⟨app, running⟩ ⟨deliver n app, running⟩ := by
  induction n generalizing app with
  | zero => exact .refl
  | succ n ih =>
      unfold deliver
      split
      · exact .refl
      · rename_i hnext
        exact .head (.move halive (.deliver hnext)) (ih halive)

/-- A wallet that waits for its first deposit. -/
def waitingWallet : Wallet where
  id := "wallet"
  state := .waitingForFirstDeposit
  owners :=
    [⟨.ofUInt 11, .thisDevice⟩, ⟨.ofUInt 12, .paperWallet⟩, ⟨.ofUInt 13, .paperWalletDerived⟩]
  address := some (.ofUInt 14)
  feePaymentTokenAddress := none
  minimumDeploymentTransactionAmount := some 100
  confirmationCount := 1
  masterCopyAddress := some (.ofUInt 15)

/-- The repositories with one wallet, which is selected. -/
def storeWith (wallet : Wallet) : Store :=
  { Store.ofWallets (Table.empty.save wallet) Table.empty with
    accounts := Table.empty.save ⟨wallet.feeAccountID, none⟩
    portfolio := some ⟨[wallet.id], some wallet.id⟩ }

/-- A deposit has arrived. -/
def depositing : Outside :=
  { offline with deployment := { balance := fun _ _ => .ok 50 } }

/-- The service was started. -/
def startedApp : App := (start.advance offline 12 (.ofStore (storeWith waitingWallet))).2

/-- Its events were delivered. -/
def resumedApp : App := deliver 10 startedApp

/-- The first round has seen the deposit and is about to save. -/
def firstRound : Call Unit × App :=
  (run offlineServices (.handle .startedWaitingForFirstDeposit "wallet")).advance depositing 9
    { resumedApp with deployments := [] }

/-- The user has aborted the deployment. -/
def abortedApp : App := (abortDeployment.advance offline 4 firstRound.2).2

/-- The round has saved its object. -/
def revivedApp : App := (firstRound.1.advance depositing 1 abortedApp).2

/-- A round that was under way when the user aborted the deployment revives it. -/
theorem round_not_staysAborted :
    ∃ config config', (system offlineServices).Runs (fun _ _ => True) (fun _ => True)
        ⟨.ofStore (storeWith waitingWallet), []⟩ config ∧
      (system offlineServices).Runs (fun _ _ => True) (fun _ => True) config config' ∧
      config.state.store.wallets.find "wallet" = some { waitingWallet with state := .draft } ∧
      config'.state.store.wallets.find "wallet" =
        some { waitingWallet with state := .notEnoughFunds } ∧
      ¬ StaysAborted "wallet" config config' := by
  have hall : ∀ (outside : Outside) (n : ℕ) (call : Call Unit) (app : App),
      call.Allowed (fun _ _ => True) outside n app :=
    Process.allowed_of_forall fun _ _ => trivial
  have hstarted : (system offlineServices).Runs (fun _ _ => True) (fun _ => True)
      ⟨.ofStore (storeWith waitingWallet), []⟩ ⟨startedApp, [.pure ()]⟩ :=
    Runs.call offline 12 Config.alive_nil trivial Starts.start (hall offline 12 _ _)
  have hresumed := hstarted.trans (runs_deliver 10 (Config.alive_nil.cons rfl))
  have hjob : DeploymentJob.handle .startedWaitingForFirstDeposit "wallet" ∈
      resumedApp.deployments := by decide
  have hround := hresumed.trans (Runs.call depositing 9 (Config.alive_nil.cons rfl) trivial
    (Starts.job hjob) (hall depositing 9 _ _))
  have haborted : (system offlineServices).Runs (fun _ _ => True) (fun _ => True)
      ⟨.ofStore (storeWith waitingWallet), []⟩ ⟨abortedApp, [.pure (), firstRound.1, .pure ()]⟩ :=
    hround.trans (Runs.call offline 4 ((Config.alive_nil.cons rfl).cons rfl) trivial
      Starts.abortDeployment (hall offline 4 _ _))
  have hrevived : (system offlineServices).Runs (fun _ _ => True) (fun _ => True)
      ⟨abortedApp, [.pure ()] ++ firstRound.1 :: [.pure ()]⟩
      ⟨revivedApp, [.pure ()] ++ (firstRound.1.advance depositing 1 abortedApp).1 :: [.pure ()]⟩ :=
    Runs.advance_at (by simp [Process.isTrap]) (hall depositing 1 _ _)
  have hdraft : abortedApp.store.wallets.find "wallet" =
      some { waitingWallet with state := .draft } := by decide
  have hfunding : revivedApp.store.wallets.find "wallet" =
      some { waitingWallet with state := .notEnoughFunds } := by decide
  refine ⟨_, _, haborted, hrevived, hdraft, hfunding, ?_⟩
  intro hstays
  have hlog : revivedApp.log = [.saved (some .draft) { waitingWallet with state := .notEnoughFunds }]
      ++ abortedApp.log := rfl
  obtain ⟨hkept, -⟩ := (hstays _ hlog (by simp)).1 _ hdraft rfl
  exact absurd (hkept _ hfunding) (by decide)

/-- The user has aborted the deployment before the round began. -/
def earlyAbortedApp : App := (abortDeployment.advance offline 4 resumedApp).2

/-- A round that begins after the deployment was aborted finds a draft and leaves it. -/
theorem laterRound_staysAborted :
    ∃ config config', (system offlineServices).Runs Current (fun _ => True)
        ⟨.ofStore (storeWith waitingWallet), []⟩ config ∧
      (system offlineServices).Runs Current (fun _ => True) config config' ∧
      config.state.store.wallets.find "wallet" = some { waitingWallet with state := .draft } ∧
      config'.state.deployments =
        [.round 0 .didReceiveFirstDeposit { waitingWallet with state := .draft }] ∧
      StaysAborted "wallet" config config' := by
  have hstarted : (system offlineServices).Runs Current (fun _ => True)
      ⟨.ofStore (storeWith waitingWallet), []⟩ ⟨startedApp, [.pure ()]⟩ :=
    Runs.call offline 12 Config.alive_nil trivial Starts.start
      ⟨trivial, trivial, trivial, trivial, trivial, trivial, trivial, trivial, trivial, trivial,
        trivial, trivial, trivial⟩
  have hresumed := hstarted.trans (runs_deliver 10 (Config.alive_nil.cons rfl))
  have hallowed : abortDeployment.Allowed Current offline 4 resumedApp :=
    ⟨trivial, ⟨by decide, waitingWallet, by decide, rfl, .inr rfl⟩, trivial,
      ⟨{ waitingWallet with state := .draft }, by decide, rfl, .inr rfl⟩, trivial⟩
  have haborted : (system offlineServices).Runs Current (fun _ => True)
      ⟨.ofStore (storeWith waitingWallet), []⟩ ⟨earlyAbortedApp, [.pure (), .pure ()]⟩ :=
    hresumed.trans (Runs.call offline 4 (Config.alive_nil.cons rfl) trivial
      Starts.abortDeployment hallowed)
  have hjob : DeploymentJob.handle .startedWaitingForFirstDeposit "wallet" ∈
      earlyAbortedApp.deployments := by decide
  have hround : (system offlineServices).Runs Current (fun _ => True)
      ⟨earlyAbortedApp, [.pure (), .pure ()]⟩ _ :=
    Runs.call depositing 8 ((Config.alive_nil.cons rfl).cons rfl) trivial
      (Starts.job hjob) ⟨trivial, trivial, trivial, trivial, trivial, trivial, trivial, trivial,
        trivial⟩
  exact ⟨_, _, haborted, hround, by decide, by decide, current_staysAborted "wallet" haborted hround⟩

/-! ## An address that changes -/

/-- A wallet whose deployment was begun. -/
def deployingWallet : Wallet :=
  { waitingWallet with
    state := .deploying
    address := none
    minimumDeploymentTransactionAmount := none
    masterCopyAddress := none }

/-- A contract at an address. -/
def offer (address : ℕ) : SafeCreationResponse := ⟨.ofUInt address, .ofUInt 15, 100⟩

/-- The relay offers it. -/
def offering (address : ℕ) : Outside :=
  { offline with
    deployment := { createSafeCreationTransaction := fun _ => .ok (offer address) } }

/-- The service was started. -/
def startedOnce : App := (start.advance offline 12 (.ofStore (storeWith deployingWallet))).2

/-- It was started once more before the first event was delivered. -/
def startedTwice : App := deliver 20 (start.advance offline 12 startedOnce).2

/-- The first handler has saved the address of its contract. -/
def firstOffer : App :=
  ((run offlineServices (.handle .deploymentStarted "wallet")).advance (offering 21) 5
    { startedTwice with deployments := [.handle .deploymentStarted "wallet"] }).2

/-- The second handler has saved the address of another one. -/
def secondOffer : App :=
  ((run offlineServices (.handle .deploymentStarted "wallet")).advance (offering 22) 5
    { firstOffer with deployments := [] }).2

/-- Two starts in a row show the user one address and then another one. -/
theorem restart_not_keepsAddress :
    ∃ config config', (system offlineServices).Runs (fun _ _ => True) (fun _ => True)
        ⟨.ofStore (storeWith deployingWallet), []⟩ config ∧
      (system offlineServices).Runs (fun _ _ => True) (fun _ => True) config config' ∧
      (config.state.store.wallets.find "wallet").map Wallet.state = some .waitingForFirstDeposit ∧
      ¬ KeepsAddress "wallet" config config' := by
  have hall : ∀ (outside : Outside) (n : ℕ) (call : Call Unit) (app : App),
      call.Allowed (fun _ _ => True) outside n app :=
    Process.allowed_of_forall fun _ _ => trivial
  have honce : (system offlineServices).Runs (fun _ _ => True) (fun _ => True)
      ⟨.ofStore (storeWith deployingWallet), []⟩ ⟨startedOnce, [.pure ()]⟩ :=
    Runs.call offline 12 Config.alive_nil trivial Starts.start (hall offline 12 _ _)
  have htwice : (system offlineServices).Runs (fun _ _ => True) (fun _ => True)
      ⟨.ofStore (storeWith deployingWallet), []⟩
      ⟨(start.advance offline 12 startedOnce).2, [.pure (), .pure ()]⟩ :=
    honce.trans (Runs.call offline 12 (Config.alive_nil.cons rfl) trivial Starts.start
      (hall offline 12 _ _))
  have hdelivered := htwice.trans (runs_deliver 20 ((Config.alive_nil.cons rfl).cons rfl))
  have hjob : DeploymentJob.handle .deploymentStarted "wallet" ∈ startedTwice.deployments := by
    decide
  have hfirst : (system offlineServices).Runs (fun _ _ => True) (fun _ => True)
      ⟨.ofStore (storeWith deployingWallet), []⟩ ⟨firstOffer, [.pure (), .pure (), .pure ()]⟩ :=
    hdelivered.trans (Runs.call (offering 21) 5 ((Config.alive_nil.cons rfl).cons rfl) trivial
      (Starts.job hjob) (hall (offering 21) 5 _ _))
  have hjob' : DeploymentJob.handle .deploymentStarted "wallet" ∈ firstOffer.deployments := by
    decide
  have hsecond : (system offlineServices).Runs (fun _ _ => True) (fun _ => True)
      ⟨firstOffer, [.pure (), .pure (), .pure ()]⟩ ⟨secondOffer, _⟩ :=
    Runs.call (offering 22) 5 (((Config.alive_nil.cons rfl).cons rfl).cons rfl) trivial
      (Starts.job hjob') (hall (offering 22) 5 _ _)
  refine ⟨_, _, hfirst, hsecond, by decide, ?_⟩
  intro hkeeps
  have hwaiting : firstOffer.store.wallets.find "wallet" =
      some { waitingWallet with address := some (.ofUInt 21) } := by decide
  have hfunding : secondOffer.store.wallets.find "wallet" =
      some { waitingWallet with state := .notEnoughFunds, address := some (.ofUInt 22) } := by
    decide
  have hlog : secondOffer.log = [.saved (some .waitingForFirstDeposit)
      { waitingWallet with state := .notEnoughFunds, address := some (.ofUInt 22) }] ++
        firstOffer.log := rfl
  have hdraft : NoDraft "wallet" [.saved (some .waitingForFirstDeposit)
      { waitingWallet with state := .notEnoughFunds, address := some (.ofUInt 22) }] := by
    intro previous wallet hmem _
    cases List.mem_singleton.mp hmem
    decide
  exact absurd (hkeeps _ hlog hdraft _ hwaiting rfl _ hfunding) (by decide)

/-- The service was started once. -/
def deliveredOnce : App := deliver 10 startedOnce

/-- The handler has saved the address. -/
def onlyOffer : App :=
  ((run offlineServices (.handle .deploymentStarted "wallet")).advance (offering 21) 5
    { deliveredOnce with deployments := [] }).2

/-- The event of the first deposit was delivered. -/
def awaited : App := deliver 1 onlyOffer

/-- Started once, the wallet is funded at the address the user has seen. -/
theorem start_keepsAddress :
    ∃ config config', (system offlineServices).Runs Current (fun _ => True)
        ⟨.ofStore (storeWith deployingWallet), []⟩ config ∧
      (system offlineServices).Runs Current (fun _ => True) config config' ∧
      (config.state.store.wallets.find "wallet").map Wallet.state = some .waitingForFirstDeposit ∧
      (config'.state.store.wallets.find "wallet").map Wallet.state = some .notEnoughFunds ∧
      KeepsAddress "wallet" config config' := by
  have honce : (system offlineServices).Runs Current (fun _ => True)
      ⟨.ofStore (storeWith deployingWallet), []⟩ ⟨startedOnce, [.pure ()]⟩ :=
    Runs.call offline 12 Config.alive_nil trivial Starts.start
      ⟨trivial, trivial, trivial, trivial, trivial, trivial, trivial, trivial, trivial, trivial,
        trivial, trivial, trivial⟩
  have hdelivered := honce.trans (runs_deliver 10 (Config.alive_nil.cons rfl))
  have hjob : DeploymentJob.handle .deploymentStarted "wallet" ∈ deliveredOnce.deployments := by
    decide
  have hallowed : (run offlineServices (.handle .deploymentStarted "wallet")).Allowed Current
      (offering 21) 5 { deliveredOnce with deployments := [] } :=
    ⟨trivial, trivial, trivial, ⟨by decide, deployingWallet, by decide, rfl, .inl rfl⟩, trivial,
      trivial⟩
  have hoffer : (system offlineServices).Runs Current (fun _ => True)
      ⟨.ofStore (storeWith deployingWallet), []⟩ ⟨onlyOffer, [.pure (), .pure ()]⟩ :=
    hdelivered.trans (Runs.call (offering 21) 5 (Config.alive_nil.cons rfl) trivial
      (Starts.job hjob) hallowed)
  have hawaited : (system offlineServices).Runs Current (fun _ => True)
      ⟨onlyOffer, [.pure (), .pure ()]⟩ ⟨awaited, [.pure (), .pure ()]⟩ :=
    runs_deliver 1 ((Config.alive_nil.cons rfl).cons rfl)
  have hjob' : DeploymentJob.handle .startedWaitingForFirstDeposit "wallet" ∈
      awaited.deployments := by decide
  have hround := hawaited.trans (Runs.call depositing 10 ((Config.alive_nil.cons rfl).cons rfl)
    trivial (Starts.job hjob') ⟨trivial, trivial, trivial, trivial, trivial, trivial, trivial,
      trivial, trivial, ⟨by decide, { waitingWallet with address := some (.ofUInt 21) }, by decide,
        rfl, .inr rfl⟩, trivial⟩)
  exact ⟨_, _, hoffer, hround, by decide, by decide, current_keepsAddress "wallet" hoffer hround⟩

end Example

end DeploymentDomainService

end SafeWallet
