/-
# Announced status updates

`updatePendingTransactions()` asks the node about one pending transaction after the
other, saves each that has a receipt, and announces the updates at the end. A request
that throws leaves the loop. Whoever waits for the announcement, such as a running
recovery, then misses the updates that were saved before: in the next call their
transactions are no longer pending.
-/

import SafeWallet.Recovery.RecoveryService

namespace SafeWallet

namespace App

variable (before after : App)

/-- The stored status of a transaction. -/
def transactionStatus (app : App) (transactionID : TransactionID) : Option TransactionStatus :=
  (app.store.transactions.find transactionID).map Transaction.status

/-- The transaction is stored and no longer pending. -/
def Settled (app : App) (transactionID : TransactionID) : Prop :=
  ∃ status, app.transactionStatus transactionID = some status ∧ status ≠ .pending

/-- A transaction that was pending was saved with another status. -/
def StatusChanged : Prop :=
  ∃ transactionID, before.transactionStatus transactionID = some .pending ∧
    after.Settled transactionID

/-- The event was published in the meantime. -/
def StatusAnnounced : Prop :=
  ∃ since, after.log = since ++ before.log ∧ .published .transactionStatusUpdated ∈ since

/-- The pending transactions. -/
def pendingTransactions (app : App) : List Transaction :=
  app.store.transactions.rows.filter fun tx => tx.status = .pending

end App

namespace TransactionDomainService

/-- What becomes of a pending transaction with the answers of the node: its processing
throws, or else whether there is an update. -/
def report (outside : Outside) (tx : Transaction) : Option Bool := do
  let hash ← tx.transactionHash
  match ← outside.eth_getTransactionReceipt hash with
  | none => return false
  | some receipt =>
    let _ ← outside.eth_getBlockByHash receipt.blockHash
    return true

section Updates

variable {answers : Place → Outside} {tx : Transaction} {app : App} {transactionID : TransactionID}

/-- The status that a receipt leads to. -/
theorem exists_processed (hpending : tx.status = .pending) (success : Bool) (now : Date) :
    ∃ tx', (if success then tx.succeed now else tx.fail now) = .ok tx' ∧ tx'.id = tx.id ∧
      tx'.status ≠ .pending := by
  simp only [Transaction.succeed, Transaction.fail, hpending]
  cases success with
  | true => exact ⟨_, rfl, rfl, by simp⟩
  | false => exact ⟨_, rfl, rfl, by simp⟩

/-- The program after a transaction was saved. -/
def saved (tx : Transaction) (app : App) : App :=
  app.modify fun store => { store with transactions := store.transactions.store tx }

/-- Saving a transaction that is not pending settles it, and leaves the settled ones
settled. -/
theorem settled_saveTransaction (hstatus : tx.status ≠ .pending)
    (h : transactionID = tx.id ∨ app.Settled transactionID) :
    (saved tx app).Settled transactionID := by
  simp only [saved, App.Settled, App.transactionStatus, App.modify_store, Transactions.store,
    Table.find_save]
  by_cases hid : (Transactions.persisted tx).id = transactionID
  · rw [if_pos hid]
    exact ⟨tx.status, rfl, hstatus⟩
  · rw [if_neg hid]
    exact h.resolve_left (Ne.symm hid)

/-- The processing of one transaction: it is settled if there is an update, and nothing
else happens. -/
structure Processed (saved : Option Bool) (tx : Transaction) (app app' : App) : Prop where
  log : app'.log = app.log
  quiet : saved ≠ some true → app' = app
  settled : saved = some true → app'.Settled tx.id
  kept : ∀ transactionID, app.Settled transactionID → app'.Settled transactionID

theorem Processed.refl {saved : Option Bool} (h : saved ≠ some true) : Processed saved tx app app :=
  ⟨rfl, fun _ => rfl, fun htrue => absurd htrue h, fun _ hsettled => hsettled⟩

/-- A transaction is settled by a save under its identifier. -/
theorem Processed.save {tx' : Transaction} (hid : tx'.id = tx.id)
    (hstatus : tx'.status ≠ .pending) : Processed (some true) tx app (saved tx' app) where
  log := rfl
  quiet h := absurd rfl h
  settled _ := settled_saveTransaction hstatus (.inl hid.symm)
  kept _ h := settled_saveTransaction hstatus (.inr h)

/-- With a block, it is saved twice. -/
theorem Processed.save_save {tx' : Transaction} (hid : tx'.id = tx.id)
    (hstatus : tx'.status ≠ .pending) :
    Processed (some true) tx app (saved tx' (saved tx' app)) where
  log := rfl
  quiet h := absurd rfl h
  settled _ := settled_saveTransaction hstatus (.inl hid.symm)
  kept _ h := settled_saveTransaction hstatus (.inr (settled_saveTransaction hstatus (.inr h)))

theorem answered_updatePending (hpending : tx.status = .pending) :
    ∃ app', (updatePending tx).answered answers app =
        (.ok (report (answers (.asking tx.id)) tx), app') ∧
      Processed (report (answers (.asking tx.id)) tx) tx app app' := by
  unfold updatePending report
  cases tx.transactionHash with
  | none => exact ⟨app, rfl, .refl (by simp)⟩
  | some hash =>
      simp only [Process.answered_query_bind, Option.bind_eq_bind, Option.bind_some]
      cases (answers (.asking tx.id)).eth_getTransactionReceipt hash with
      | none => exact ⟨app, rfl, .refl (by simp)⟩
      | some receipt =>
          cases receipt with
          | none => exact ⟨app, rfl, .refl (by simp)⟩
          | some receipt =>
              obtain ⟨tx', hprocessed, hid, hstatus⟩ :=
                exists_processed hpending receipt.success (answers .elsewhere).now
              simp only [Call.now, Process.answered_query_bind, Option.bind_some, hprocessed,
                Process.lift, Process.pure_bind, hid]
              cases (answers (.asking tx.id)).eth_getBlockByHash receipt.blockHash with
              | none => exact ⟨app, rfl, .refl (by simp)⟩
              | some block =>
                  cases block with
                  | none => exact ⟨_, rfl, .save hid hstatus⟩
                  | some timestamp => exact ⟨_, rfl, .save_save rfl hstatus⟩

/-- The transactions that are processed before one throws. -/
def reached (answers : Place → Outside) (transactions : List Transaction) : List Transaction :=
  transactions.takeWhile fun tx => (report (answers (.asking tx.id)) tx).isSome

/-- No processing throws. -/
def Completes (answers : Place → Outside) (transactions : List Transaction) : Prop :=
  ∀ tx ∈ transactions, report (answers (.asking tx.id)) tx ≠ none

/-- Some transaction is updated before one throws. -/
def Updates (answers : Place → Outside) (transactions : List Transaction) : Prop :=
  ∃ tx ∈ reached answers transactions, report (answers (.asking tx.id)) tx = some true

/-- The loop. -/
structure Looped (answers : Place → Outside) (transactions : List Transaction) (hasUpdates : Bool)
    (app app' : App) : Prop where
  published : Completes answers transactions → hasUpdates = true ∨ Updates answers transactions →
    app'.log = .published .transactionStatusUpdated :: app.log
  silent : ¬ Completes answers transactions → app'.log = app.log
  quiet : ¬ Updates answers transactions → app'.store = app.store
  settled : ∀ tx ∈ reached answers transactions, report (answers (.asking tx.id)) tx = some true →
    app'.Settled tx.id
  kept : ∀ transactionID, app.Settled transactionID → app'.Settled transactionID

theorem looped_nil {hasUpdates : Bool} :
    Looped answers [] hasUpdates app ((updateAll [] hasUpdates).answered answers app).2 := by
  have hstore : ((updateAll [] hasUpdates).answered answers app).2.store = app.store := by
    cases hasUpdates <;> rfl
  refine ⟨?_, ?_, fun _ => hstore, by simp [reached], ?_⟩
  · rintro - (rfl | ⟨tx, hmem, -⟩)
    · rfl
    · simp [reached] at hmem
  · exact fun h => absurd (fun _ hmem => by simp at hmem) h
  · intro transactionID hsettled
    simpa only [App.Settled, App.transactionStatus, hstore] using hsettled

/-- A transaction that throws ends the loop. -/
theorem looped_of_throws {rest : List Transaction} {hasUpdates : Bool}
    (h : report (answers (.asking tx.id)) tx = none) :
    Looped answers (tx :: rest) hasUpdates app app := by
  have hreached : reached answers (tx :: rest) = [] := by simp [reached, h]
  refine ⟨fun hcompletes => ?_, fun _ => rfl, fun _ => rfl, by simp [hreached], fun _ h => h⟩
  exact absurd h (hcompletes tx List.mem_cons_self)

/-- The loop goes on after a transaction that does not throw. -/
theorem Looped.cons {rest : List Transaction} {hasUpdates updated : Bool} {app' app'' : App}
    (h : report (answers (.asking tx.id)) tx = some updated)
    (hprocessed : Processed (some updated) tx app app')
    (hrest : Looped answers rest (hasUpdates || updated) app' app'') :
    Looped answers (tx :: rest) hasUpdates app app'' := by
  have hreached : reached answers (tx :: rest) = tx :: reached answers rest := by
    simp [reached, h]
  have hcompletes : Completes answers (tx :: rest) ↔ Completes answers rest := by
    simp [Completes, h]
  have hupdates : Updates answers (tx :: rest) ↔ updated = true ∨ Updates answers rest := by
    simp [Updates, hreached, h]
  refine ⟨?_, ?_, ?_, ?_, fun id hsettled => hrest.kept id (hprocessed.kept id hsettled)⟩
  · intro hall hsome
    rw [← hprocessed.log]
    refine hrest.published (hcompletes.mp hall) ?_
    rw [hupdates, ← or_assoc] at hsome
    simpa using hsome
  · intro hthrows
    rw [← hprocessed.log]
    exact hrest.silent fun hall => hthrows (hcompletes.mpr hall)
  · intro hnone
    rw [hupdates, not_or] at hnone
    rw [hrest.quiet hnone.2, hprocessed.quiet (by simpa using hnone.1)]
  · rw [hreached, List.forall_mem_cons]
    refine ⟨fun htrue => hrest.kept tx.id (hprocessed.settled ?_), hrest.settled⟩
    rw [← h, htrue]

theorem looped_updateAll {transactions : List Transaction} {hasUpdates : Bool}
    (hpending : ∀ tx ∈ transactions, tx.status = .pending) :
    Looped answers transactions hasUpdates app
      ((updateAll transactions hasUpdates).answered answers app).2 := by
  induction transactions generalizing hasUpdates app with
  | nil => exact looped_nil
  | cons tx rest ih =>
      rw [List.forall_mem_cons] at hpending
      obtain ⟨app', hanswered, hprocessed⟩ := @answered_updatePending answers tx app hpending.1
      rw [updateAll, Process.answered_bind, hanswered]
      cases hreport : report (answers (.asking tx.id)) tx with
      | none =>
          obtain rfl := hprocessed.quiet (by simp [hreport])
          exact looped_of_throws hreport
      | some updated =>
          rw [hreport] at hprocessed
          exact .cons hreport hprocessed (ih hpending.2)

end Updates

/-- A call announces what it has saved exactly if no processing throws, or nothing was
updated before the first one that does. -/
theorem updatePendingTransactions_announces_iff (answers : Place → Outside) (app : App) :
    (app.StatusChanged (updatePendingTransactions.answered answers app).2 →
        app.StatusAnnounced (updatePendingTransactions.answered answers app).2) ↔
      Completes answers app.pendingTransactions ∨ ¬ Updates answers app.pendingTransactions := by
  have hpending : ∀ tx ∈ app.pendingTransactions, tx ∈ app.store.transactions.rows ∧
      tx.status = .pending := by
    intro tx hmem
    simpa [App.pendingTransactions] using hmem
  have hlooped : Looped answers app.pendingTransactions false app
      (updatePendingTransactions.answered answers app).2 :=
    looped_updateAll fun tx hmem => (hpending tx hmem).2
  generalize (updatePendingTransactions.answered answers app).2 = app' at hlooped ⊢
  have hchanged : app.StatusChanged app' ↔ Updates answers app.pendingTransactions := by
    constructor
    · rintro ⟨transactionID, hbefore, status, hafter, hne⟩
      by_contra hnone
      rw [App.transactionStatus, hlooped.quiet hnone] at hafter
      exact hne (Option.some.inj (hafter.symm.trans hbefore))
    · rintro ⟨tx, hmem, hreport⟩
      have hrow := hpending tx (List.takeWhile_subset _ hmem)
      refine ⟨tx.id, ?_, hlooped.settled tx hmem hreport⟩
      rw [App.transactionStatus, Table.find_of_mem hrow.1, Option.map_some, hrow.2]
  rw [hchanged]
  by_cases hcompletes : Completes answers app.pendingTransactions
  · refine ⟨fun _ => .inl hcompletes, fun _ hupdates => ?_⟩
    exact ⟨[.published .transactionStatusUpdated], hlooped.published hcompletes (.inr hupdates),
      List.mem_singleton_self _⟩
  · have hsilent : ¬ app.StatusAnnounced app' := by
      rintro ⟨since, hlog, hmem⟩
      rw [hlooped.silent hcompletes] at hlog
      rw [List.self_eq_append_left.mp hlog] at hmem
      cases hmem
    simp only [hsilent, hcompletes, false_or, imp_false]

/-- A submitted transaction. -/
def submitted (transactionID : TransactionID) (hash : String) : Transaction :=
  .toItself transactionID .transfer "wallet" (.ofChain 5) .pending hash

/-- Two transactions are pending. -/
def submittedApp : App := .ofStore (Store.ofWallets Table.empty
  ((Table.empty.save (submitted "first" "0x01")).save (submitted "second" "0x02")))

/-- The first one is mined, and the request about the second one throws. -/
def interruptedAnswers : Place → Outside := fun _ =>
  { now := 0
    eth_call _ _ := none
    submitTransaction _ := none
    eth_getTransactionReceipt hash := if hash = "0x01" then some (some ⟨true, [1]⟩) else none
    eth_getBlockByHash _ := some (some 1) }

/-- The first transaction is saved as successful, and nobody hears of it. -/
theorem interruptedUpdate_unannounced :
    submittedApp.StatusChanged
        (updatePendingTransactions.answered interruptedAnswers submittedApp).2 ∧
      ¬ submittedApp.StatusAnnounced
        (updatePendingTransactions.answered interruptedAnswers submittedApp).2 := by
  refine ⟨⟨"first", by decide +kernel, .success, by decide +kernel, by decide⟩, ?_⟩
  rintro ⟨since, hlog, hmem⟩
  have hempty : (updatePendingTransactions.answered interruptedAnswers submittedApp).2.log = [] :=
    rfl
  rw [hempty] at hlog
  rw [(List.append_eq_nil_iff.mp hlog.symm).1] at hmem
  cases hmem

end TransactionDomainService

end SafeWallet
