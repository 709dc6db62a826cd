/-
# Stored transactions through the operations of the app

The app makes a transaction or takes it over from the list of the service. From then on it
loads the transaction, calls its methods and saves it again; estimation, signing, messages,
submission and the update of what is pending are sequences of the calls below. What the status
machine leads to is loaded as it was saved. Two operations go around the machine: a reset
clears the date of the creation, without which no transaction is made, and a synchronisation
sets a status whether or not the transaction has what this status asserts.
-/

import SafeWallet.Repositories.SyncedTransactions
import SafeWallet.Repositories.TokenPersistence

namespace SafeWallet

/-! ## Calls -/

/-- The field that `change(…:)` changes, with its value. -/
inductive TransactionChange
  | type (type : TransactionType)
  | sender (sender : Option Address)
  | recipient (recipient : Option Address)
  | amount (amount : Option TokenAmount)
  | fee (fee : Option TokenAmount)
  | feeEstimate (feeEstimate : Option TransactionFeeEstimate)
  | data (data : Option Data)
  | operation (operation : Option WalletOperation)
  | nonce (nonce : Option ℤ)
  | hash (hash : Option Data)

namespace Transaction

/-- The methods `change(…:)`. Each stamps the update. -/
def change (tx : Transaction) (now : Date) : TransactionChange → Transaction
  | .type type => { tx with type := type, updatedDate := some now }
  | .sender sender => { tx with sender := sender, updatedDate := some now }
  | .recipient recipient => { tx with recipient := recipient, updatedDate := some now }
  | .amount amount => { tx with amount := amount, updatedDate := some now }
  | .fee fee => { tx with fee := fee, updatedDate := some now }
  | .feeEstimate feeEstimate => { tx with feeEstimate := feeEstimate, updatedDate := some now }
  | .data data => { tx with data := data, updatedDate := some now }
  | .operation operation => { tx with operation := operation, updatedDate := some now }
  | .nonce nonce => { tx with nonce := nonce, updatedDate := some now }
  | .hash hash => { tx with hash := hash, updatedDate := some now }

/-- `set(hash:)`. -/
def set (tx : Transaction) (hash : String) (now : Date) : Transaction :=
  { tx with transactionHash := some hash, updatedDate := some now }

/-- `timestampProcessed(at:)`. -/
def timestampProcessed (tx : Transaction) (date : Date) : Transaction :=
  { tx with processedDate := some date }

/-- `timestampUpdated(at:)`. -/
def timestampUpdated (tx : Transaction) (date : Date) : Transaction :=
  { tx with updatedDate := some date }

/-- What `resetTransaction(_:)` does before it saves. -/
def resetTransaction (tx : Transaction) (now : Date) : Trapping Transaction := do
  let tx ← tx.reset
  return (tx.change now (.fee none)).change now (.feeEstimate none)

end Transaction

/-- What the app does with a transaction. A synchronisation is given the reported transactions;
a transaction is found after it was saved. -/
inductive TransactionCall
  | change (change : TransactionChange)
  | set (hash : String)
  | add (signature : Signature)
  | remove (signature : Signature)
  | proceed
  | stepBack
  | reject
  | succeed
  | fail
  | timestampProcessed (date : Date)
  | timestampUpdated (date : Date)
  | resetTransaction
  | sync (remote : List RemoteTransaction)
  | find

namespace DBTransactionRepository

open TransactionSyncDomainService

/-! ## What is loaded back -/

/-- Saved in a repository that can be loaded, a transaction is found by its identifier and
among all others as it was, with empty data identified with none. -/
structure LoadsBack (kit : TextKit) (tx : Transaction) : Prop where
  find : ∀ repository now,
    find kit (save tx repository) tx.id now = .ok (some (withoutEmptyData tx))
  all : ∀ repository now txs, all kit repository now = .ok txs →
    ∃ txs', all kit (save tx repository) now = .ok txs' ∧ withoutEmptyData tx ∈ txs'

/-! ## Runs of calls -/

/-- A call at some time. -/
def perform (kit : TextKit) (tx : Transaction) (now : Date) :
    TransactionCall → Trapping Transaction
  | .change change => return tx.change now change
  | .set hash => return tx.set hash now
  | .add signature => return tx.add signature now
  | .remove signature => return tx.remove signature now
  | .proceed => tx.proceed now
  | .stepBack => tx.stepBack
  | .reject => tx.reject now
  | .succeed => tx.succeed now
  | .fail => tx.fail now
  | .timestampProcessed date => return tx.timestampProcessed date
  | .timestampUpdated date => return tx.timestampUpdated date
  | .resetTransaction => tx.resetTransaction now
  | .sync remote => return updated (identified (remote.map RemoteTransaction.transaction)) now tx
  | .find => do Trapping.unwrap (← find kit (save tx Table.empty) tx.id now)

/-- One step of a run. -/
def step (kit : TextKit) (tx : Transaction) (call : TransactionCall × Date) :
    Trapping Transaction := perform kit tx call.2 call.1

/-- How a transaction gets into the app. -/
inductive Origin
  | made (id : TransactionID) (type : TransactionType) (accountID : AccountID)
  | added (remote : RemoteTransaction) (id : TransactionID)

/-- The transaction with which a run begins. -/
def Origin.transaction (now : Date) : Origin → Transaction
  | .made id type accountID => Transaction.new id type accountID now
  | .added remote id => { remote.transaction with id := id }

/-- Every transaction that is reached by calls, one after the other, can be saved and is
loaded back. -/
def AlwaysLoadsBack (kit : TextKit) (origin : Origin) (start : Date)
    (calls : List (TransactionCall × Date)) : Prop :=
  Trapping.Reached (step kit) (LoadsBack kit) calls (origin.transaction start)

/-! ## Careful calls -/

section Careful

variable (kit : TextKit) (tx : Transaction)

/-- A field that has left the draft is not cleared, and what it holds can be stored. -/
def CarefulChange : TransactionChange → Prop
  | .sender sender => tx.status ≠ .draft → sender.isSome
  | .recipient recipient => tx.status ≠ .draft → recipient.isSome
  | .amount amount => (∀ a ∈ amount, Stored kit a) ∧ (tx.status ≠ .draft → amount.isSome)
  | .fee fee => (∀ a ∈ fee, Stored kit a) ∧ (tx.status ≠ .draft → fee.isSome)
  | .feeEstimate estimate => ∀ e ∈ estimate, Stored kit e.gasPrice
  | .hash hash => hash ≠ some []
  | _ => True

/-- Only a transaction that is not rejected is reset, which stops the program; and what a
synchronisation finds covers the status that it sets. -/
def Careful : TransactionCall → Prop
  | .change change => CarefulChange kit tx change
  | .set hash => '\x00' ∉ hash.toList
  | .resetTransaction => tx.status ≠ .rejected
  | .sync remote =>
    ∀ reported ∈ matching (identified (remote.map RemoteTransaction.transaction)) tx,
      Covered tx reported
  | _ => True

/-- What is taken over from the list as a new transaction can be stored as it is. -/
def Origin.Careful : Origin → Prop
  | .made _ _ _ => True
  | .added remote _ => Persistent kit remote.transaction

end Careful

/-! ## Addresses -/

/-- The addresses of a value are addresses. -/
def WellFormedChange : TransactionChange → Prop
  | .sender address => ∀ a ∈ address, a.WellFormed
  | .recipient address => ∀ a ∈ address, a.WellFormed
  | .amount amount => ∀ a ∈ amount, a.token.address.WellFormed
  | .fee fee => ∀ a ∈ fee, a.token.address.WellFormed
  | .feeEstimate estimate => ∀ e ∈ estimate, e.gasPrice.token.address.WellFormed
  | _ => True

/-- The addresses that a call brings are addresses. `Address` is not made of other texts. -/
def WellFormedCall : TransactionCall → Prop
  | .change change => WellFormedChange change
  | .add signature => signature.address.WellFormed
  | .sync remote =>
    ∀ reported ∈ remote, ∀ signature ∈ reported.transaction.signatures, signature.address.WellFormed
  | _ => True

/-- The addresses of a transaction that is taken over are addresses. -/
def Origin.WellFormed : Origin → Prop
  | .made _ _ _ => True
  | .added remote _ => WellFormedAddresses remote.transaction

section Lemmas

variable {kit : TextKit} {tx tx' remote : Transaction} {now : Date}

/-! ## What is saved is found -/

theorem loadsBack_iff : LoadsBack kit tx ↔ Reloads kit tx := by
  constructor
  · intro h now
    rw [← find_save tx Table.empty now]
    exact h.find Table.empty now
  · intro h
    refine ⟨fun repository now => (find_save tx repository now).trans (h now),
      fun repository now txs hall => ?_⟩
    -- The row of the transaction is replaced, the others stay.
    obtain ⟨others, hothers⟩ := Trapping.exists_mapM_eq_ok_iff.mpr fun row
        (hrow : row ∈ repository.others tx.id) =>
      exists_all_iff.mp ⟨txs, hall⟩ row (List.mem_filter.mp hrow).1
    have hrows : (save tx repository).rows = repository.others tx.id ++ [row tx] := rfl
    refine ⟨(others ++ [some (withoutEmptyData tx)]).reduceOption, ?_, by
      simp [List.reduceOption]⟩
    simp only [all, hrows, List.mapM_append, hothers, List.mapM_cons, List.mapM_nil, h now,
      Trapping.ok_bind, Trapping.pure_eq_ok]

/-! ## Changes -/

theorem WellFormedAddresses.change {change : TransactionChange} (h : WellFormedAddresses tx)
    (hchange : WellFormedChange change) : WellFormedAddresses (tx.change now change) := by
  cases change with
  | sender sender => exact { h with sender := hchange }
  | recipient recipient => exact { h with recipient := hchange }
  | amount amount => exact { h with amount := hchange }
  | fee fee => exact { h with fee := hchange }
  | feeEstimate feeEstimate => exact { h with feeEstimate := hchange }
  | type type => exact { h with }
  | data data => exact { h with }
  | operation operation => exact { h with }
  | nonce nonce => exact { h with }
  | hash hash => exact { h with }

/-- The type, the nonce and what is called can be stored whatever they are. -/
theorem Persistent.withCall (h : Persistent kit tx) (type : TransactionType)
    (data : Option Data) (operation : Option WalletOperation) (nonce : Option ℤ) :
    Persistent kit { tx with
      type := type, data := data, operation := operation, nonce := nonce
      updatedDate := some now } :=
  { h with ready := h.ready.of_same rfl rfl rfl rfl rfl, updatedDate := rfl }

/-- A change keeps a transaction stored exactly if it leaves no gap. -/
theorem persistent_change_iff {change : TransactionChange} (h : Persistent kit tx) :
    Persistent kit (tx.change now change) ↔ CarefulChange kit tx change := by
  cases change with
  | sender sender =>
      constructor
      · exact fun h' hstatus => (h'.ready.complete hstatus).sender
      · intro hsender
        have hready : Ready tx.status { tx with sender := sender, updatedDate := some now } :=
          ⟨fun hstatus => { h.ready.complete hstatus with sender := hsender hstatus },
            h.ready.transactionHash⟩
        exact { h with ready := hready, updatedDate := rfl }
  | recipient recipient =>
      constructor
      · exact fun h' hstatus => (h'.ready.complete hstatus).recipient
      · intro hrecipient
        have hready : Ready tx.status { tx with recipient := recipient, updatedDate := some now } :=
          ⟨fun hstatus => { h.ready.complete hstatus with recipient := hrecipient hstatus },
            h.ready.transactionHash⟩
        exact { h with ready := hready, updatedDate := rfl }
  | amount amount =>
      constructor
      · exact fun h' => ⟨h'.amount, fun hstatus => (h'.ready.complete hstatus).amount⟩
      · rintro ⟨hstored, hamount⟩
        have hready : Ready tx.status { tx with amount := amount, updatedDate := some now } :=
          ⟨fun hstatus => { h.ready.complete hstatus with amount := hamount hstatus },
            h.ready.transactionHash⟩
        exact { h with amount := hstored, ready := hready, updatedDate := rfl }
  | fee fee =>
      constructor
      · exact fun h' => ⟨h'.fee, fun hstatus => (h'.ready.complete hstatus).fee⟩
      · rintro ⟨hstored, hfee⟩
        have hready : Ready tx.status { tx with fee := fee, updatedDate := some now } :=
          ⟨fun hstatus => { h.ready.complete hstatus with fee := hfee hstatus },
            h.ready.transactionHash⟩
        exact { h with fee := hstored, ready := hready, updatedDate := rfl }
  | feeEstimate estimate =>
      exact ⟨fun h' => h'.gasPrice, fun hstored => { h with
        gasPrice := hstored, ready := h.ready.of_same rfl rfl rfl rfl rfl, updatedDate := rfl }⟩
  | hash hash =>
      exact ⟨fun h' => h'.hash, fun hne => { h with
        hash := hne, ready := h.ready.of_same rfl rfl rfl rfl rfl, updatedDate := rfl }⟩
  | type type =>
      exact iff_of_true (h.withCall _ _ _ _) trivial
  | data data =>
      exact iff_of_true (h.withCall _ _ _ _) trivial
  | operation operation =>
      exact iff_of_true (h.withCall _ _ _ _) trivial
  | nonce nonce =>
      exact iff_of_true (h.withCall _ _ _ _) trivial

/-! ## Hashes, dates and signatures -/

theorem WellFormedAddresses.set {hash : String} (h : WellFormedAddresses tx) :
    WellFormedAddresses (tx.set hash now) := { h with }

theorem persistent_set_iff {hash : String} (h : Persistent kit tx) :
    Persistent kit (tx.set hash now) ↔ '\x00' ∉ hash.toList := by
  constructor
  · exact fun h' => h'.transactionHash hash rfl
  · intro hplain
    have hready : Ready tx.status (tx.set hash now) :=
      ⟨fun hstatus => { h.ready.complete hstatus with }, fun _ => rfl⟩
    refine { h with ready := hready, updatedDate := rfl, transactionHash := ?_ }
    rintro _ ⟨⟩
    exact hplain

theorem WellFormedAddresses.timestamp {updated processed : Option Date}
    (h : WellFormedAddresses tx) :
    WellFormedAddresses { tx with updatedDate := updated, processedDate := processed } := { h with }

theorem Persistent.timestampProcessed (h : Persistent kit tx) (date : Date) :
    Persistent kit (tx.timestampProcessed date) :=
  { h with ready := h.ready.of_same rfl rfl rfl rfl rfl, processedDate := fun _ => rfl }

theorem Persistent.timestampUpdated (h : Persistent kit tx) (date : Date) :
    Persistent kit (tx.timestampUpdated date) :=
  { h with ready := h.ready.of_same rfl rfl rfl rfl rfl, updatedDate := rfl }

/-- The signatures can be exchanged for others that are different from each other. -/
theorem Persistent.withSignatures {signatures : List Signature} (h : Persistent kit tx)
    (hnodup : signatures.Nodup) :
    Persistent kit { tx with signatures := signatures, updatedDate := some now } :=
  { h with
    ready := h.ready.of_same rfl rfl rfl rfl rfl, signatures := hnodup, updatedDate := rfl }

theorem Persistent.add (h : Persistent kit tx) (signature : Signature) (now : Date) :
    Persistent kit (tx.add signature now) := by
  by_cases hmem : signature ∈ tx.signatures
  · rw [Transaction.add, if_pos hmem]
    exact h
  · rw [Transaction.add, if_neg hmem]
    refine h.withSignatures (List.nodup_append.mpr ⟨h.signatures, List.nodup_singleton _, ?_⟩)
    intro other hother new hnew heq
    exact hmem (List.mem_singleton.mp hnew ▸ heq ▸ hother)

theorem Persistent.remove (h : Persistent kit tx) (signature : Signature) (now : Date) :
    Persistent kit (tx.remove signature now) := by
  unfold Transaction.remove
  split
  · exact h.withSignatures (h.signatures.erase signature)
  · exact h

theorem WellFormedAddresses.withSignatures {signatures : List Signature}
    (h : WellFormedAddresses tx)
    (hsignatures : ∀ signature ∈ signatures, signature.address.WellFormed) :
    WellFormedAddresses { tx with signatures := signatures, updatedDate := some now } :=
  { h with signatures := hsignatures }

theorem WellFormedAddresses.add {signature : Signature} (h : WellFormedAddresses tx)
    (hsignature : signature.address.WellFormed) :
    WellFormedAddresses (tx.add signature now) := by
  unfold Transaction.add
  split
  · exact h
  · refine h.withSignatures fun other hother => ?_
    rcases List.mem_append.mp hother with hold | hnew
    · exact h.signatures other hold
    · exact List.mem_singleton.mp hnew ▸ hsignature

theorem WellFormedAddresses.remove {signature : Signature} (h : WellFormedAddresses tx) :
    WellFormedAddresses (tx.remove signature now) := by
  unfold Transaction.remove
  split
  · exact h.withSignatures fun other hother => h.signatures other (List.mem_of_mem_erase hother)
  · exact h

/-! ## The status machine -/

/-- A change of the status and of the dates. -/
def moved (tx : Transaction) (status : TransactionStatus)
    (updated rejected submitted processed : Option Date) : Transaction :=
  { tx with
    status := status
    updatedDate := updated
    rejectedDate := rejected
    submittedDate := submitted
    processedDate := processed }

/-- What the methods of the status machine do to a transaction that can be stored. -/
theorem persistent_moved {status : TransactionStatus}
    {updated rejected submitted processed : Option Date} (h : Persistent kit tx)
    (hready : Ready status tx) (hupdated : updated.isSome)
    (hrejected : status = .rejected → rejected.isSome)
    (hsubmitted : isSubmitted status = true → submitted.isSome)
    (hprocessed : isProcessed status = true → processed.isSome) :
    Persistent kit (moved tx status updated rejected submitted processed) :=
  { h with
    ready := hready.of_same rfl rfl rfl rfl rfl
    updatedDate := hupdated
    rejectedDate := hrejected
    submittedDate := hsubmitted
    processedDate := hprocessed }

/-- A step of the status machine to a transaction that can be stored. -/
def Moves (kit : TextKit) (tx tx' : Transaction) : Prop :=
  Persistent kit tx' ∧ ∃ status updated rejected submitted processed,
    tx' = moved tx status updated rejected submitted processed

theorem Moves.addresses (h : Moves kit tx tx') (haddresses : WellFormedAddresses tx) :
    WellFormedAddresses tx' := by
  obtain ⟨-, status, updated, rejected, submitted, processed, rfl⟩ := h
  exact { haddresses with }

theorem Persistent.proceed (h : Persistent kit tx) (hproceed : tx.proceed now = .ok tx') :
    Moves kit tx tx' := by
  cases hstatus : tx.status with
  | draft =>
      obtain ⟨hcomplete, rfl⟩ := (proceed_draft_iff hstatus).mp hproceed
      refine ⟨?_, .signing, some now, tx.rejectedDate, tx.submittedDate, tx.processedDate, rfl⟩
      exact persistent_moved h ⟨fun _ => hcomplete, by simp [isSubmitted]⟩ rfl (by simp)
        (by simp [isSubmitted]) (by simp [isProcessed])
  | signing =>
      obtain ⟨hhash, rfl⟩ := (proceed_signing_iff hstatus).mp hproceed
      have hcomplete := h.ready.complete (by simp [hstatus])
      refine ⟨?_, .pending, some now, tx.rejectedDate, some now, tx.processedDate, rfl⟩
      exact persistent_moved h ⟨fun _ => hcomplete, fun _ => hhash⟩ rfl (by simp) (fun _ => rfl)
        (by simp [isProcessed])
  | pending => simp [Transaction.proceed, hstatus] at hproceed
  | rejected => simp [Transaction.proceed, hstatus] at hproceed
  | failed => simp [Transaction.proceed, hstatus] at hproceed
  | success => simp [Transaction.proceed, hstatus] at hproceed

theorem Persistent.stepBack (h : Persistent kit tx) (hback : tx.stepBack = .ok tx') :
    Moves kit tx tx' := by
  unfold Transaction.stepBack at hback
  split at hback
  · cases hback
    refine ⟨?_, .draft, tx.updatedDate, tx.rejectedDate, tx.submittedDate, tx.processedDate, rfl⟩
    exact persistent_moved h (ready_draft tx) h.updatedDate (by simp) (by simp [isSubmitted])
      (by simp [isProcessed])
  · rename_i hstatus
    cases hback
    have hcomplete := h.ready.complete (by simp [hstatus])
    refine ⟨?_, .signing, tx.updatedDate, tx.rejectedDate, tx.submittedDate, tx.processedDate, rfl⟩
    exact persistent_moved h ⟨fun _ => hcomplete, by simp [isSubmitted]⟩ h.updatedDate (by simp)
      (by simp [isSubmitted]) (by simp [isProcessed])
  · cases hback

theorem Persistent.reject (h : Persistent kit tx) (hreject : tx.reject now = .ok tx') :
    Moves kit tx tx' := by
  unfold Transaction.reject at hreject
  split at hreject
  · rename_i hstatus
    cases hreject
    have hcomplete := h.ready.complete (by simp [hstatus])
    refine ⟨?_, .rejected, some now, some now, tx.submittedDate, tx.processedDate, rfl⟩
    exact persistent_moved h ⟨fun _ => hcomplete, by simp [isSubmitted]⟩ rfl (fun _ => rfl)
      (by simp [isSubmitted]) (by simp [isProcessed])
  · cases hreject

/-- What is pending is processed in either way. -/
theorem Persistent.processed {status : TransactionStatus} (h : Persistent kit tx)
    (hpending : tx.status = .pending) (hprocessed : isProcessed status = true) :
    Moves kit tx (moved tx status (some now) tx.rejectedDate tx.submittedDate (some now)) := by
  have hsubmitted : isSubmitted tx.status = true := by simp [isSubmitted, hpending]
  have hcomplete := h.ready.complete (by simp [hpending])
  have hrejected : status ≠ .rejected := by
    rintro rfl
    simp [isProcessed] at hprocessed
  exact ⟨persistent_moved h ⟨fun _ => hcomplete, fun _ => h.ready.transactionHash hsubmitted⟩ rfl
    (fun heq => absurd heq hrejected) (fun _ => h.submittedDate hsubmitted) (fun _ => rfl),
    _, _, _, _, _, rfl⟩

theorem Persistent.succeed (h : Persistent kit tx) (hsucceed : tx.succeed now = .ok tx') :
    Moves kit tx tx' := by
  unfold Transaction.succeed at hsucceed
  split at hsucceed
  · rename_i hstatus
    cases hsucceed
    have hprocessed : isProcessed .success = true := rfl
    exact h.processed hstatus hprocessed
  · cases hsucceed

theorem Persistent.fail (h : Persistent kit tx) (hfail : tx.fail now = .ok tx') :
    Moves kit tx tx' := by
  unfold Transaction.fail at hfail
  split at hfail
  · rename_i hstatus
    cases hfail
    have hprocessed : isProcessed .failed = true := rfl
    exact h.processed hstatus hprocessed
  · cases hfail

/-! ## Around the status machine -/

/-- A reset transaction has no date of its creation. -/
theorem resetTransaction_eq_ok_iff : tx.resetTransaction now = .ok tx' ↔
    tx.status = .rejected ∧ tx' = { tx with
      transactionHash := none, createdDate := none, updatedDate := some now, rejectedDate := none,
      submittedDate := none, processedDate := none, signatures := [], status := .draft,
      fee := none, feeEstimate := none } := by
  cases hstatus : tx.status
  case rejected =>
    simp only [Transaction.resetTransaction, Transaction.reset, hstatus, Trapping.pure_eq_ok,
      Trapping.ok_bind, Transaction.change, Except.ok.injEq, true_and]
    exact eq_comm
  all_goals simp [Transaction.resetTransaction, Transaction.reset, hstatus]

theorem updatedDate_foldl {f : Transaction → Signature → Transaction} {signatures : List Signature}
    (hf : ∀ tx signature, tx.updatedDate.isSome → (f tx signature).updatedDate.isSome)
    (h : tx.updatedDate.isSome) : (signatures.foldl f tx).updatedDate.isSome := by
  induction signatures generalizing tx with
  | nil => exact h
  | cons signature rest ih => exact ih (hf tx signature h)

theorem updatedDate_add (signature : Signature) (h : tx.updatedDate.isSome) :
    (tx.add signature now).updatedDate.isSome := by
  unfold Transaction.add
  split
  · exact h
  · rfl

theorem updatedDate_remove (signature : Signature) (h : tx.updatedDate.isSome) :
    (tx.remove signature now).updatedDate.isSome := by
  unfold Transaction.remove
  split
  · rfl
  · exact h

/-- An update from the list keeps the date of the last update. -/
theorem updatedDate_merged (h : tx.updatedDate.isSome) :
    (merged tx remote now).updatedDate.isSome := by
  apply updatedDate_foldl fun _ signature h => updatedDate_add signature h
  apply updatedDate_foldl fun _ signature h => updatedDate_remove signature h
  have hhash : (withHash tx remote now).updatedDate.isSome := by
    unfold withHash
    split
    · rfl
    · exact h
  unfold withStatus
  split
  · simp [hhash]
  · exact hhash

theorem Persistent.dated (h : Persistent kit tx) : Dated tx :=
  ⟨h.createdDate, h.rejectedDate, h.submittedDate, h.processedDate⟩

/-- An update keeps a transaction stored exactly if both sides cover the new status. -/
theorem persistent_merged_iff (h : Persistent kit tx) (hremote : remote.signatures.Nodup) :
    Persistent kit (merged tx remote now) ↔ Covered tx remote := by
  have hupdated : (merged tx remote now).updatedDate.isSome := updatedDate_merged h.updatedDate
  rw [@covered_iff _ _ now h.dated hremote, ← @ready_merged_iff _ _ now hremote]
  obtain ⟨date, hmerged⟩ := merged_spec tx now hremote
  rw [hmerged] at hupdated ⊢
  constructor
  · intro h'
    exact ⟨fun text htext => h'.transactionHash text (by simp [Option.mem_def.mp htext]),
      h'.ready, h'.dated⟩
  · rintro ⟨hplain, hready, hdated⟩
    refine { h with
      signatures := hremote
      transactionHash := fun text htext => ?_
      ready := hready
      createdDate := hdated.createdDate
      updatedDate := hupdated
      rejectedDate := hdated.rejectedDate
      submittedDate := hdated.submittedDate
      processedDate := hdated.processedDate }
    rcases Option.or_eq_some_iff.mp (Option.mem_def.mp htext) with hnew | ⟨-, hold⟩
    · exact hplain text hnew
    · exact h.transactionHash text hold

theorem WellFormedAddresses.merged (h : WellFormedAddresses tx) (hremote : remote.signatures.Nodup)
    (hsignatures : ∀ signature ∈ remote.signatures, signature.address.WellFormed) :
    WellFormedAddresses (merged tx remote now) := by
  obtain ⟨date, hmerged⟩ := merged_spec tx now hremote
  rw [hmerged]
  exact { h with signatures := hsignatures }

/-- What is found instead of a transaction that can be stored can be stored again. -/
theorem Persistent.withoutEmptyData (h : Persistent kit tx) :
    Persistent kit (withoutEmptyData tx) :=
  { h with ready := h.ready.of_same rfl rfl rfl rfl rfl }

theorem WellFormedAddresses.withoutEmptyData (h : WellFormedAddresses tx) :
    WellFormedAddresses (withoutEmptyData tx) := { h with }

theorem perform_find (haddresses : WellFormedAddresses tx) (h : Persistent kit tx) :
    perform kit tx now .find = .ok (withoutEmptyData tx) := by
  rw [perform, find_save, (reloads_iff haddresses).mpr h now]
  rfl

/-! ## Runs that can be stored -/

theorem exists_reported (services : Services) (known : List TransactionID)
    (remote : List RemoteTransaction) : ∃ reported : List RemoteTransaction,
      reported.map RemoteTransaction.transaction = withNewIDs services known remote := by
  induction remote generalizing known with
  | nil => exact ⟨[], rfl⟩
  | cons first rest ih =>
      obtain ⟨reported, hreported⟩ := ih (services.nextID known :: known)
      let named : RemoteTransaction :=
        ⟨{ first.transaction with id := services.nextID known }, first.signatures_nodup⟩
      exact ⟨named :: reported, congrArg (List.cons named.transaction) hreported⟩

/-- What a synchronisation saves in place of what it has loaded is what the call makes of each of
them. -/
theorem sync_performs (services : Services) (service : Address → List RemoteTransaction)
    {store : Store} {safe : Address} (hsafe : syncedSafe store = some safe)
    (repository : Repository) (locals : List Transaction) (now : Date) :
    ∃ reported, ∀ stored ∈ identified locals, ∃ saved,
      perform kit stored now (.sync reported) = .ok saved ∧
      saved ∈ savedTransactions (remoteTransactions services service store repository)
        locals now := by
  obtain ⟨reported, hreported⟩ :=
    exists_reported services (repository.rows.map TransactionRow.id) (service safe)
  refine ⟨reported, fun stored hstored => ⟨_, rfl, ?_⟩⟩
  have hremote : remoteTransactions services service store repository =
      identified (reported.map RemoteTransaction.transaction) := by
    rw [remoteTransactions, hsafe, hreported]
  rw [hremote]
  exact List.mem_append_left _ (List.mem_map_of_mem hstored)

theorem sync_cases (remote : List RemoteTransaction) (tx : Transaction) (now : Date) :
    let reported := identified (remote.map RemoteTransaction.transaction)
    (matching reported tx = none ∧ updated reported now tx = tx) ∨
      ∃ found ∈ remote, matching reported tx = some found.transaction ∧
        updated reported now tx = merged tx found.transaction now := by
  intro reported
  cases hmatch : matching reported tx with
  | none => exact .inl ⟨rfl, by rw [updated, hmatch]⟩
  | some first =>
      obtain ⟨found, hfound, rfl⟩ :=
        List.mem_map.mp (mem_identified.mp (matching_spec hmatch).1).1
      exact .inr ⟨found, hfound, rfl, by rw [updated, hmatch]⟩

theorem perform_addresses {call : TransactionCall} (haddresses : WellFormedAddresses tx)
    (h : Persistent kit tx) (hcall : WellFormedCall call)
    (hperform : perform kit tx now call = .ok tx') : WellFormedAddresses tx' := by
  cases call with
  | change change =>
      cases hperform
      exact haddresses.change hcall
  | set hash =>
      cases hperform
      exact haddresses.set
  | add signature =>
      cases hperform
      exact haddresses.add hcall
  | remove signature =>
      cases hperform
      exact haddresses.remove
  | proceed => exact (h.proceed hperform).addresses haddresses
  | stepBack => exact (h.stepBack hperform).addresses haddresses
  | reject => exact (h.reject hperform).addresses haddresses
  | succeed => exact (h.succeed hperform).addresses haddresses
  | fail => exact (h.fail hperform).addresses haddresses
  | timestampProcessed date =>
      cases hperform
      exact haddresses.timestamp
  | timestampUpdated date =>
      cases hperform
      exact haddresses.timestamp
  | resetTransaction =>
      obtain ⟨-, rfl⟩ := resetTransaction_eq_ok_iff.mp hperform
      exact { haddresses with
        fee := by simp
        feeEstimate := by simp
        signatures := by simp }
  | sync remote =>
      cases hperform
      rcases sync_cases remote tx now with ⟨-, hsame⟩ | ⟨found, hfound, -, hmerged⟩
      · rw [hsame]
        exact haddresses
      · rw [hmerged]
        exact haddresses.merged found.signatures_nodup (hcall found hfound)
  | find =>
      rw [perform_find haddresses h] at hperform
      cases hperform
      exact haddresses.withoutEmptyData

/-- A call keeps a transaction stored exactly if it is careful. -/
theorem perform_persistent_iff {call : TransactionCall} (haddresses : WellFormedAddresses tx)
    (h : Persistent kit tx) :
    (∀ tx', perform kit tx now call = .ok tx' → Persistent kit tx') ↔ Careful kit tx call := by
  have hok {result : Transaction} : (∀ tx', (.ok result : Trapping Transaction) = .ok tx' →
      Persistent kit tx') ↔ Persistent kit result :=
    ⟨fun hall => hall result rfl, fun hresult tx' heq => Except.ok.inj heq ▸ hresult⟩
  cases call with
  | change change => exact hok.trans (persistent_change_iff h)
  | set hash => exact hok.trans (persistent_set_iff h)
  | add signature => exact iff_of_true (hok.mpr (h.add signature now)) trivial
  | remove signature => exact iff_of_true (hok.mpr (h.remove signature now)) trivial
  | proceed => exact iff_of_true (fun _ hperform => (h.proceed hperform).1) trivial
  | stepBack => exact iff_of_true (fun _ hperform => (h.stepBack hperform).1) trivial
  | reject => exact iff_of_true (fun _ hperform => (h.reject hperform).1) trivial
  | succeed => exact iff_of_true (fun _ hperform => (h.succeed hperform).1) trivial
  | fail => exact iff_of_true (fun _ hperform => (h.fail hperform).1) trivial
  | timestampProcessed date =>
      exact iff_of_true (hok.mpr (h.timestampProcessed date)) trivial
  | timestampUpdated date => exact iff_of_true (hok.mpr (h.timestampUpdated date)) trivial
  | resetTransaction =>
      constructor
      · intro hall hstatus
        have hcreated := (hall _ (resetTransaction_eq_ok_iff.mpr ⟨hstatus, rfl⟩)).createdDate
        cases hcreated
      · intro hstatus tx' hperform
        exact absurd (resetTransaction_eq_ok_iff.mp hperform).1 hstatus
  | sync remote =>
      refine hok.trans ?_
      rcases sync_cases remote tx now with ⟨hnone, hsame⟩ | ⟨found, -, hsome, hmerged⟩
      · rw [hsame, Careful, hnone]
        exact iff_of_true h (by simp)
      · rw [hmerged, Careful, hsome, persistent_merged_iff h found.signatures_nodup]
        simp
  | find =>
      rw [perform_find haddresses h]
      exact iff_of_true (hok.mpr h.withoutEmptyData) trivial

theorem origin_addresses {origin : Origin} {start : Date} (h : origin.WellFormed) :
    WellFormedAddresses (origin.transaction start) := by
  cases origin with
  | made id type accountID => constructor <;> simp [Origin.transaction, Transaction.new]
  | added remote id => exact { (show WellFormedAddresses remote.transaction from h) with }

theorem origin_persistent_iff {origin : Origin} {start : Date} :
    Persistent kit (origin.transaction start) ↔ origin.Careful kit := by
  cases origin with
  | made id type accountID =>
      refine iff_of_true ?_ trivial
      constructor
      case ready => exact ready_draft _
      all_goals simp [Origin.transaction, Transaction.new, isSubmitted, isProcessed]
  | added remote id =>
      constructor
      · intro h
        exact { h with ready := h.ready.of_same rfl rfl rfl rfl rfl }
      · intro h
        have hremote : Persistent kit remote.transaction := h
        exact { hremote with ready := hremote.ready.of_same rfl rfl rfl rfl rfl }

end Lemmas

/-- Every transaction that is reached is loaded back exactly if every call on the way is
careful, and a transaction that was taken over from the list could be stored. -/
theorem alwaysLoadsBack_iff (kit : TextKit) {origin : Origin} (start : Date)
    {calls : List (TransactionCall × Date)} (horigin : origin.WellFormed)
    (hcalls : ∀ call ∈ calls, WellFormedCall call.1) :
    AlwaysLoadsBack kit origin start calls ↔ origin.Careful kit ∧
      Trapping.Taken (step kit) (fun tx call => Careful kit tx call.1) calls
        (origin.transaction start) := by
  have haddresses : WellFormedAddresses (origin.transaction start) := origin_addresses horigin
  rw [← @origin_persistent_iff kit origin start]
  have hloads {tx : Transaction} (h : WellFormedAddresses tx) :
      LoadsBack kit tx ↔ Persistent kit tx := loadsBack_iff.trans (reloads_iff h)
  have hruns (h : Persistent kit (origin.transaction start)) :
      AlwaysLoadsBack kit origin start calls ↔ Trapping.Taken (step kit)
        (fun tx call => Careful kit tx call.1) calls (origin.transaction start) := by
    refine Trapping.reached_iff_taken (p := WellFormedAddresses) ?_ ?_ haddresses
      ((hloads haddresses).mpr h)
    · intro call hcall tx tx' htx hload hstep
      exact perform_addresses htx ((hloads htx).mp hload) (hcalls call hcall) hstep
    · intro call hcall tx htx hload
      have hp := (hloads htx).mp hload
      rw [← @perform_persistent_iff kit tx call.2 call.1 htx hp]
      refine forall_congr' fun tx' => forall_congr' fun hstep => ?_
      exact hloads (perform_addresses htx hp (hcalls call hcall) hstep)
  constructor
  · intro h
    have hp := (hloads haddresses).mp (h [] calls _ rfl rfl)
    exact ⟨hp, (hruns hp).mp h⟩
  · rintro ⟨hp, hcareful⟩
    exact (hruns hp).mpr hcareful

/-! ## A rejected transfer that is estimated again -/

/-- A transfer of Ether, from the first edit to the estimated fee. -/
def transferCalls : List (TransactionCall × Date) :=
  [(.change (.amount (some (.ether 1))), 1), (.change (.recipient (some Address.zero)), 1),
    (.change (.sender (some Address.zero)), 1), (.change (.fee (some (.ether 2))), 2),
    (.change (.hash (some [1])), 2), (.proceed, 2)]

/-- The transfer before its first edit. -/
def newTransfer : Origin := .made "T" .transfer ⟨"0x0", "W"⟩

/-- The transfer that waits for signatures. -/
def estimatedTransfer : Transaction :=
  { Transaction.new "T" .transfer ⟨"0x0", "W"⟩ 0 with
    status := .signing
    sender := some Address.zero
    recipient := some Address.zero
    amount := some (.ether 1)
    fee := some (.ether 2)
    hash := some [1]
    updatedDate := some 2 }

theorem run_transferCalls (kit : TextKit) :
    transferCalls.foldlM (step kit) (newTransfer.transaction 0) = .ok estimatedTransfer := rfl

theorem transferCalls_wellFormed : ∀ call ∈ transferCalls, WellFormedCall call.1 := by
  have hzero : Address.zero.WellFormed := Address.not_hasLetters_zero.1
  intro call hcall
  simp only [transferCalls, List.mem_cons, List.not_mem_nil, or_false] at hcall
  rcases hcall with rfl | rfl | rfl | rfl | rfl | rfl
  case inl | inr.inl | inr.inr.inl | inr.inr.inr.inl =>
    rintro _ ⟨⟩
    exact hzero
  all_goals trivial

theorem transferCalls_careful (kit : TextKit) :
    Trapping.Taken (step kit) (fun tx call => Careful kit tx call.1) transferCalls
      (newTransfer.transaction 0) := by
  have hether (amount : ℤ) : ∀ a ∈ some (TokenAmount.ether amount), Stored kit a := by
    rintro _ ⟨⟩
    exact stored_ether kit amount
  refine Trapping.taken_cons.mpr ⟨⟨hether 1, fun _ => rfl⟩, fun tx hamount => ?_⟩
  cases hamount
  refine Trapping.taken_cons.mpr ⟨fun _ => rfl, fun tx hrecipient => ?_⟩
  cases hrecipient
  refine Trapping.taken_cons.mpr ⟨fun _ => rfl, fun tx hsender => ?_⟩
  cases hsender
  refine Trapping.taken_cons.mpr ⟨⟨hether 2, fun _ => rfl⟩, fun tx hfee => ?_⟩
  cases hfee
  refine Trapping.taken_cons.mpr ⟨by simp [Careful, CarefulChange], fun tx hhash => ?_⟩
  cases hhash
  exact Trapping.taken_cons.mpr ⟨trivial, fun tx hproceed => Trapping.taken_nil⟩

/-- The service has seen the transfer executed. -/
def executedTransfer : RemoteTransaction where
  transaction := { estimatedTransfer with
    status := .success
    transactionHash := some "0x02"
    submittedDate := some 3
    processedDate := some 4 }
  signatures_nodup := by decide

/-- The service has seen the transfer signed. -/
def signedTransfer : RemoteTransaction where
  transaction := { estimatedTransfer with signatures := [⟨[1], Address.zero⟩] }
  signatures_nodup := by decide

/-- From the draft to the execution, as the service reports it. -/
def executedCalls : List (TransactionCall × Date) :=
  transferCalls ++ [(.add ⟨[1], Address.zero⟩, 3), (.set "0x02", 3), (.proceed, 3),
    (.sync [executedTransfer], 5), (.find, 6)]

/-- A transfer that is signed, submitted and executed is loaded back all the time. -/
theorem executedTransfer_loadsBack : AlwaysLoadsBack marks newTransfer 0 executedCalls := by
  have hzero : Address.zero.WellFormed := Address.not_hasLetters_zero.1
  have horigin : newTransfer.WellFormed := trivial
  refine (alwaysLoadsBack_iff marks 0 horigin ?_).mpr ⟨trivial, ?_⟩
  · intro call hcall
    rcases List.mem_append.mp hcall with htransfer | hrest
    · exact transferCalls_wellFormed call htransfer
    · simp only [List.mem_cons, List.not_mem_nil, or_false] at hrest
      rcases hrest with rfl | rfl | rfl | rfl | rfl
      · exact hzero
      · trivial
      · trivial
      · intro reported hreported signature hsignature
        rw [List.mem_singleton.mp hreported] at hsignature
        cases hsignature
      · trivial
  · rw [executedCalls, Trapping.taken_append]
    refine ⟨transferCalls_careful marks, fun tx hestimated => ?_⟩
    cases (run_transferCalls marks).symm.trans hestimated
    refine Trapping.taken_cons.mpr ⟨trivial, fun tx hadd => ?_⟩
    cases hadd
    refine Trapping.taken_cons.mpr ⟨by simp [Careful], fun tx hset => ?_⟩
    cases hset
    refine Trapping.taken_cons.mpr ⟨trivial, fun tx hproceed => ?_⟩
    cases hproceed
    refine Trapping.taken_cons.mpr ⟨fun reported hreported => ?_, fun tx _ => ?_⟩
    · obtain ⟨found, hfound, rfl⟩ :=
        List.mem_map.mp (mem_identified.mp (matching_spec hreported).1).1
      rw [List.mem_singleton.mp hfound]
      constructor
      case plain =>
        rintro _ ⟨⟩
        simp
      case complete => exact fun _ => ⟨rfl, rfl, rfl, rfl⟩
      case rejectedDate => exact fun hstatus => by cases hstatus
      all_goals exact fun _ => rfl
    · exact Trapping.taken_cons.mpr ⟨trivial, fun _ _ => Trapping.taken_nil⟩

/-- Without a fee, what has left the draft is not loaded at all, and neither is anything that
is stored beside it. -/
theorem not_loaded_of_no_fee {kit : TextKit} {tx : Transaction} (hstatus : tx.status ≠ .draft)
    (hfee : tx.fee = none) (repository : Repository) (now : Date) :
    ¬ ∃ txs, all kit (save tx repository) now = .ok txs := by
  rw [exists_all_iff]
  intro hloads
  have hloaded : Loads kit tx :=
    loads_iff_exists.mpr (hloads (row tx) (Table.mem_rows_save.mpr (.inl rfl)))
  obtain ⟨loaded, hload⟩ := hloaded
  obtain ⟨columns, hcolumns, hready, -⟩ := load_row_eq_some_iff.mp hload
  have hnone : nextAmount kit (row tx).fee = .ok none := by simp [row, hfee, nextAmount]
  have hcolumn : columns.fee = none := Except.ok.inj (hcolumns.fee.symm.trans hnone)
  have hsome : columns.fee.isSome := (hready.complete hstatus).fee
  rw [hcolumn] at hsome
  cases hsome

/-- The transfer after it was rejected and reset. -/
def resetTransfer : Transaction :=
  { estimatedTransfer with
    status := .draft
    createdDate := none
    updatedDate := some 4
    fee := none }

/-- A rejection, the reset after it, and what the service reports then. -/
def resetCalls : List (TransactionCall × Date) :=
  transferCalls ++ [(.reject, 3), (.resetTransaction, 4)]

theorem run_resetCalls :
    resetCalls.foldlM (step marks) (newTransfer.transaction 0) = .ok resetTransfer := rfl

theorem resetTransfer_addresses : WellFormedAddresses resetTransfer := by
  have hzero : Address.zero.WellFormed := Address.not_hasLetters_zero.1
  constructor
  all_goals
    rintro _ ⟨⟩
    try exact hzero

/-- A rejected transfer that was reset is loaded with the time of the load as the date of its
creation. If the service knows it as signed, the status is taken over without a fee, and from
then on no transaction is loaded any more. -/
theorem resetTransfer_not_loadsBack :
    (∀ repository, find marks (save resetTransfer repository) "T" 9 =
      .ok (some { resetTransfer with createdDate := some 9 })) ∧
    (∃ tx, (resetCalls ++ [(TransactionCall.sync [signedTransfer], 5)]).foldlM (step marks)
        (newTransfer.transaction 0) = .ok tx ∧
      ∀ repository now, ¬ ∃ txs, all marks (save tx repository) now = .ok txs) ∧
    ¬ AlwaysLoadsBack marks newTransfer 0 resetCalls := by
  refine ⟨fun repository => ?_, ?_, fun h => ?_⟩
  · rw [show "T" = resetTransfer.id from rfl, find_save]
    decide +kernel
  · have hmatch : matching (identified ([signedTransfer].map RemoteTransaction.transaction))
        resetTransfer = some signedTransfer.transaction := by
      decide +kernel
    refine ⟨merged resetTransfer signedTransfer.transaction 5, ?_, fun repository now => ?_⟩
    · rw [List.foldlM_append, run_resetCalls, Trapping.ok_bind]
      have hupdated : updated (identified ([signedTransfer].map RemoteTransaction.transaction)) 5
          resetTransfer = merged resetTransfer signedTransfer.transaction 5 := by
        rw [updated, hmatch]
      exact congrArg Except.ok hupdated
    · obtain ⟨date, hmerged⟩ := merged_spec resetTransfer 5 signedTransfer.signatures_nodup
      rw [hmerged]
      refine not_loaded_of_no_fee ?_ rfl repository now
      show signedTransfer.transaction.status ≠ .draft
      decide
  · have hloads := loadsBack_iff.mp (h resetCalls [] resetTransfer rfl run_resetCalls)
    have hcreated := ((reloads_iff resetTransfer_addresses).mp hloads).createdDate
    cases hcreated

end DBTransactionRepository

end SafeWallet
