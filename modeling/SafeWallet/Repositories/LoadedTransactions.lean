/-
# The repository of transactions

What is loaded from a row, whatever the row holds, can be stored: the texts were divided at
their separators, the status was replayed, and each date of the status is there. So it is
written and loaded again as it is. The time of the load only shows in the dates that are not
in the row.
-/

import Mathlib.Data.List.ReduceOption
import SafeWallet.Repositories.TransactionRow

namespace SafeWallet

namespace DBTransactionRepository

open TransactionSyncDomainService

/-! ## The repository -/

/-- The rows of `tbl_transactions`. -/
abbrev Repository := Table TransactionRow.id

/-- `save(_:)`. -/
def save (tx : Transaction) (repository : Repository) : Repository := repository.save (row tx)

/-- `find(id:)`. -/
def find (kit : TextKit) (repository : Repository) (id : TransactionID) (now : Date) :
    Trapping (Option Transaction) :=
  match repository.find id with
  | some row => transactionFromResultSet kit row now
  | none => return none

/-- `all()`. -/
def all (kit : TextKit) (repository : Repository) (now : Date) : Trapping (List Transaction) := do
  let loaded ← repository.rows.mapM fun row => transactionFromResultSet kit row now
  return loaded.reduceOption

section Repository

variable {kit : TextKit} {row : TransactionRow} {tx tx' : Transaction} {now : Date}
  {repository : Repository} {txs : List Transaction}

theorem find_save (tx : Transaction) (repository : Repository) (now : Date) :
    find kit (save tx repository) tx.id now =
      transactionFromResultSet kit (DBTransactionRepository.row tx) now := by
  have hsaved : (save tx repository).find tx.id = some (DBTransactionRepository.row tx) :=
    Table.find_save_self
  rw [find, hsaved]

/-- One row that cannot be loaded stops every load of all. -/
theorem exists_all_iff : (∃ txs, all kit repository now = .ok txs) ↔
    ∀ row ∈ repository.rows, ∃ tx?, transactionFromResultSet kit row now = .ok tx? := by
  rw [← Trapping.exists_mapM_eq_ok_iff]
  simp only [all, Trapping.bind_eq_ok_iff, Trapping.pure_eq_ok, Except.ok.injEq]
  exact ⟨fun ⟨_, loaded, hloaded, _⟩ => ⟨loaded, hloaded⟩,
    fun ⟨loaded, hloaded⟩ => ⟨_, loaded, hloaded, rfl⟩⟩

theorem mem_all_iff (h : all kit repository now = .ok txs) :
    tx ∈ txs ↔ ∃ row ∈ repository.rows, transactionFromResultSet kit row now = .ok (some tx) := by
  simp only [all, Trapping.bind_eq_ok_iff, Trapping.pure_eq_ok, Except.ok.injEq] at h
  obtain ⟨loaded, hloaded, rfl⟩ := h
  rw [List.reduceOption_mem_iff, Trapping.mem_mapM_iff hloaded]

theorem id_of_load (h : transactionFromResultSet kit row now = .ok (some tx)) : tx.id = row.id := by
  obtain ⟨type, status, columns, -, -, -, -, rfl⟩ := load_eq_some_iff.mp h
  rfl

/-- Transactions are loaded in the order of their rows. -/
theorem ids_sublist (h : all kit repository now = .ok txs) :
    (txs.map Transaction.id).Sublist (repository.rows.map TransactionRow.id) := by
  simp only [all, Trapping.bind_eq_ok_iff, Trapping.pure_eq_ok, Except.ok.injEq] at h
  obtain ⟨loaded, hloaded, rfl⟩ := h
  generalize repository.rows = rows at hloaded
  induction rows generalizing loaded with
  | nil =>
      cases hloaded
      exact List.Sublist.slnil
  | cons row rest ih =>
      simp only [List.mapM_cons, Trapping.bind_eq_ok_iff, Trapping.pure_eq_ok,
        Except.ok.injEq] at hloaded
      obtain ⟨first, hfirst, others, hothers, rfl⟩ := hloaded
      cases first with
      | none => exact (ih others hothers).cons _
      | some tx =>
          rw [List.reduceOption_cons_of_some, List.map_cons, List.map_cons, id_of_load hfirst]
          exact (ih others hothers).cons_cons _

theorem ids_nodup (h : all kit repository now = .ok txs) : (txs.map Transaction.id).Nodup :=
  repository.keys_nodup.sublist (ids_sublist h)

/-- Transactions are loaded under different identifiers. -/
theorem eq_of_mem_all (h : all kit repository now = .ok txs) (htx : tx ∈ txs) (htx' : tx' ∈ txs)
    (hid : tx.id = tx'.id) : tx = tx' :=
  List.inj_on_of_nodup_map (ids_nodup h) htx htx' hid

end Repository

section Loaded

variable {kit : TextKit} {row : TransactionRow} {tx tx' loaded remote : Transaction}
  {now now' : Date}

/-! ## At another time -/

/-- A transaction without its dates. -/
def undated (tx : Transaction) : Transaction :=
  { tx with
    createdDate := none
    updatedDate := none
    rejectedDate := none
    submittedDate := none
    processedDate := none }

/-- At another time a row is loaded as the same transaction with other dates. -/
theorem load_at (h : transactionFromResultSet kit row now = .ok (some tx)) (now' : Date) :
    ∃ tx', transactionFromResultSet kit row now' = .ok (some tx') ∧ undated tx' = undated tx := by
  obtain ⟨type, status, columns, htype, hstatus, hcolumns, hready, rfl⟩ := load_eq_some_iff.mp h
  exact ⟨_, load_eq_some_iff.mpr ⟨type, status, columns, htype, hstatus, hcolumns, hready, rfl⟩,
    rfl⟩

theorem exists_load_at (h : ∃ tx?, transactionFromResultSet kit row now = .ok tx?) (now' : Date) :
    ∃ tx?, transactionFromResultSet kit row now' = .ok tx? := by
  obtain ⟨tx?, hload⟩ := h
  cases tx? with
  | none => exact ⟨none, load_eq_none_iff.mpr (load_eq_none_iff.mp hload)⟩
  | some tx =>
      obtain ⟨tx', hload', -⟩ := load_at hload now'
      exact ⟨some tx', hload'⟩

/-- The dates that belong to the status are there. -/
structure Dated (tx : Transaction) : Prop where
  createdDate : tx.createdDate.isSome
  rejectedDate : tx.status = .rejected → tx.rejectedDate.isSome
  submittedDate : isSubmitted tx.status = true → tx.submittedDate.isSome
  processedDate : isProcessed tx.status = true → tx.processedDate.isSome

/-- A transaction with the dates that a load adds. -/
def reloaded (tx : Transaction) (now : Date) : Transaction :=
  { tx with
    createdDate := tx.createdDate.or (some now)
    updatedDate := tx.updatedDate.or (some now)
    rejectedDate := tx.rejectedDate.or (if tx.status = .rejected then some now else none)
    submittedDate := tx.submittedDate.or (if isSubmitted tx.status then some now else none)
    processedDate := tx.processedDate.or (if isProcessed tx.status then some now else none) }

theorem or_some_eq_self_iff {date : Option Date} : date.or (some now) = date ↔ date.isSome := by
  cases date <;> simp

/-- A load leaves a transaction as it is, up to the moment of its update, exactly if it has its
dates. -/
theorem unstamped_reloaded_iff : unstamped (reloaded tx now) = unstamped tx ↔ Dated tx := by
  constructor
  · intro h
    exact ⟨or_some_eq_self_iff.mp (congrArg Transaction.createdDate h),
      or_ite_eq_self_iff.mp (congrArg Transaction.rejectedDate h),
      or_ite_eq_self_iff.mp (congrArg Transaction.submittedDate h),
      or_ite_eq_self_iff.mp (congrArg Transaction.processedDate h)⟩
  · intro h
    simp only [unstamped, reloaded, or_some_eq_self_iff.mpr h.createdDate,
      or_ite_eq_self_iff.mpr h.rejectedDate, or_ite_eq_self_iff.mpr h.submittedDate,
      or_ite_eq_self_iff.mpr h.processedDate]

theorem reloaded_eq_self (h : Dated tx) (hupdated : tx.updatedDate.isSome) :
    reloaded tx now = tx := by
  simp only [reloaded, or_some_eq_self_iff.mpr h.createdDate, or_some_eq_self_iff.mpr hupdated,
    or_ite_eq_self_iff.mpr h.rejectedDate, or_ite_eq_self_iff.mpr h.submittedDate,
    or_ite_eq_self_iff.mpr h.processedDate]

/-- A date that is missing is the time of the load. -/
theorem isSome_of_or_eq {date : Option Date} {p : Prop} [Decidable p]
    (h : date.or (if p then some (now + 1) else none) = date.or (if p then some now else none))
    (hp : p) : date.isSome := by
  cases date with
  | none => simp [hp] at h
  | some date => rfl

/-- Loads at different times agree exactly if the dates are there. -/
theorem dated_of_unstamped_reloaded
    (h : unstamped (reloaded tx (now + 1)) = unstamped (reloaded tx now)) : Dated tx := by
  have hcreated : tx.createdDate.or (some (now + 1)) = tx.createdDate.or (some now) :=
    congrArg Transaction.createdDate h
  refine ⟨?_, isSome_of_or_eq (congrArg Transaction.rejectedDate h),
    isSome_of_or_eq (congrArg Transaction.submittedDate h),
    isSome_of_or_eq (congrArg Transaction.processedDate h)⟩
  exact @isSome_of_or_eq now _ True _ (by simpa using hcreated) trivial

theorem Dated.of_unstamped (h : Dated tx) (hsame : unstamped tx' = unstamped tx) : Dated tx' := by
  have hstatus : tx'.status = tx.status := (congrArg Transaction.status hsame :)
  have hcreated : tx'.createdDate = tx.createdDate := (congrArg Transaction.createdDate hsame :)
  have hrejected : tx'.rejectedDate = tx.rejectedDate := (congrArg Transaction.rejectedDate hsame :)
  have hsubmitted : tx'.submittedDate = tx.submittedDate := (congrArg Transaction.submittedDate hsame :)
  have hprocessed : tx'.processedDate = tx.processedDate := (congrArg Transaction.processedDate hsame :)
  constructor
  · exact hcreated ▸ h.createdDate
  · exact hstatus ▸ hrejected ▸ h.rejectedDate
  · exact hstatus ▸ hsubmitted ▸ h.submittedDate
  · exact hstatus ▸ hprocessed ▸ h.processedDate

/-! ## What was loaded is written and loaded again -/

/-- The columns of a transaction are read as its fields. -/
structure Legible (kit : TextKit) (tx : Transaction) : Prop where
  reads : Reads kit (DBTransactionRepository.row tx) (columnsOf tx)
  signatures : tx.signatures.Nodup
  transactionHash : ∀ text ∈ tx.transactionHash, '\x00' ∉ text.toList
  hash : tx.hash ≠ some []
  data : tx.data ≠ some []

/-- A legible transaction is loaded exactly if it has what its status asserts. -/
theorem Legible.load_iff (h : Legible kit tx) :
    transactionFromResultSet kit (DBTransactionRepository.row tx) now = .ok (some loaded) ↔
      Ready tx.status tx ∧ loaded = reloaded tx now := by
  have hupdated : (if tx.status = .draft then some now else some now) = some now := ite_self _
  have hloaded : loadedFrom (DBTransactionRepository.row tx) tx.type tx.status (columnsOf tx) now =
      reloaded tx now := by
    have hdata := nextData_eq_self_iff.mpr h.data
    have hhash := nextData_eq_self_iff.mpr h.hash
    have htransactionHash := map_nextString_eq_self_iff.mpr h.transactionHash
    have hsignatures := added_eq_self_iff.mpr h.signatures
    simp only [loadedFrom, timestamp, replayed, draftFrom, operation_row, nonce_row,
      transactionHash_row, htransactionHash, columnsOf, hsignatures]
    simp only [DBTransactionRepository.row, hdata, hhash, Transaction.new, reloaded, hupdated]
  rw [load_row_eq_some_iff]
  constructor
  · rintro ⟨columns, hcolumns, hready, rfl⟩
    cases hcolumns.unique h.reads
    exact ⟨ready_draftFrom_iff.mp hready, hloaded⟩
  · rintro ⟨hready, rfl⟩
    exact ⟨columnsOf tx, h.reads, ready_draftFrom_iff.mpr hready, hloaded.symm⟩

theorem nextAddress_of_nextAddress {column : Option (List Char)} {address : Option Address}
    (h : nextAddress column = .ok address) :
    nextAddress (address.map fun a => a.value.toList) = .ok address := by
  cases column with
  | none =>
      cases h
      rfl
  | some column =>
      simp only [nextAddress, Trapping.bind_eq_ok_iff] at h
      obtain ⟨a, ha, h⟩ := h
      have hvalue := Address.value_of_make ha
      cases h
      have htext : Column.nextString a.value.toList = a.value.toList := by
        rw [hvalue, String.toList_ofList, nextString_eq_self]
        exact nul_not_mem_nextString column
      simp only [Option.map_some, nextAddress, htext, String.ofList_toList]
      rw [← hvalue] at ha
      simp only [ha, Trapping.ok_bind, Trapping.pure_eq_ok]

theorem nextAmount_of_nextAmount {column : Option (List Char)} {amount : Option TokenAmount}
    (h : nextAmount kit column = .ok amount) :
    nextAmount kit (amount.map TokenAmount.serialized) = .ok amount := by
  cases amount with
  | none => rfl
  | some amount =>
      cases column with
      | none => cases h
      | some column =>
          have hnul : '\x00' ∉ amount.serialized :=
            TokenAmount.nul_not_mem_serialized_of_ofText h (nul_not_mem_nextString column)
          rw [Option.map_some, nextAmount, nextString_eq_self.mpr hnul]
          exact TokenAmount.ofText_serialized_of_ofText h

theorem nextFeeEstimate_of_nextFeeEstimate
    (h : nextFeeEstimate kit row = .ok tx.feeEstimate) :
    nextFeeEstimate kit (DBTransactionRepository.row tx) = .ok tx.feeEstimate := by
  cases hestimate : tx.feeEstimate with
  | none => simp [nextFeeEstimate, DBTransactionRepository.row, hestimate, nextInteger]
  | some estimate =>
      rw [hestimate] at h
      have hgasPrice : nextAmount kit row.feeEstimateGasPrice = .ok (some estimate.gasPrice) := by
        unfold nextFeeEstimate at h
        split at h
        · simp only [Trapping.bind_eq_ok_iff] at h
          obtain ⟨gasPrice, hread, h⟩ := h
          cases gasPrice with
          | none => cases h
          | some gasPrice =>
              cases h
              exact hread
        · cases h
      have hread : nextAmount kit (some estimate.gasPrice.serialized) =
          .ok (some estimate.gasPrice) := nextAmount_of_nextAmount hgasPrice
      simp only [nextFeeEstimate, DBTransactionRepository.row, hestimate, Option.map_some,
        nextInteger_text, hread, Trapping.ok_bind, Trapping.pure_eq_ok]

/-- What was loaded can be written, whatever the row held. -/
theorem legible_of_load (h : transactionFromResultSet kit row now = .ok (some tx)) :
    Legible kit tx := by
  obtain ⟨type, status, columns, -, -, hcolumns, -, rfl⟩ := load_eq_some_iff.mp h
  have hsigners := signer_of_deserializedSignatures (nul_not_mem_nextString _) hcolumns.signatures
  constructor
  case reads =>
    exact {
      sender := nextAddress_of_nextAddress hcolumns.sender
      recipient := nextAddress_of_nextAddress hcolumns.recipient
      amount := nextAmount_of_nextAmount hcolumns.amount
      fee := nextAmount_of_nextAmount hcolumns.fee
      signatures := deserializedSignatures_of_signers fun signature hsignature =>
        hsigners signature ((mem_added hsignature).resolve_left (by simp))
      feeEstimate := nextFeeEstimate_of_nextFeeEstimate hcolumns.feeEstimate }
  case signatures => exact added_nodup columns.signatures List.nodup_nil
  case transactionHash =>
    intro text htext
    have hread : row.transactionHash.map (fun column => String.ofList (Column.nextString column)) =
        some text := htext
    obtain ⟨column, -, rfl⟩ := Option.map_eq_some_iff.mp hread
    rw [String.toList_ofList]
    exact nul_not_mem_nextString column
  case hash => exact fun hhash => by simpa using (Option.filter_eq_some_iff.mp hhash).2
  case data => exact fun hdata => by simpa using (Option.filter_eq_some_iff.mp hdata).2

theorem ready_of_load (h : transactionFromResultSet kit row now = .ok (some tx)) :
    Ready tx.status tx := by
  obtain ⟨type, status, columns, -, -, -, hready, rfl⟩ := load_eq_some_iff.mp h
  exact hready.of_same rfl rfl rfl rfl rfl

theorem dated_of_load (h : transactionFromResultSet kit row now = .ok (some tx)) :
    Dated tx ∧ tx.updatedDate.isSome := by
  obtain ⟨type, status, columns, -, -, -, -, rfl⟩ := load_eq_some_iff.mp h
  refine ⟨⟨?_, fun hrejected => ?_, fun hsubmitted => ?_, fun hprocessed => ?_⟩, ?_⟩
  · simp [loadedFrom, timestamp, replayed, draftFrom, Transaction.new]
  · have hstatus : status = .rejected := hrejected
    simp [loadedFrom, timestamp, replayed, hstatus]
  · have hstatus : isSubmitted status = true := hsubmitted
    simp [loadedFrom, timestamp, replayed, hstatus]
  · have hstatus : isProcessed status = true := hprocessed
    simp [loadedFrom, timestamp, replayed, hstatus]
  · simp [loadedFrom, timestamp, replayed, draftFrom, Transaction.new]

/-- What was loaded is saved and loaded as it is. -/
theorem load_row_of_load (h : transactionFromResultSet kit row now = .ok (some tx))
    (now' : Date) :
    transactionFromResultSet kit (DBTransactionRepository.row tx) now' = .ok (some tx) := by
  obtain ⟨hdated, hupdated⟩ := dated_of_load h
  exact (legible_of_load h).load_iff.mpr ⟨ready_of_load h, (reloaded_eq_self hdated hupdated).symm⟩

/-! ## Rows that were written -/

/-- The row of a transaction is loaded. -/
def Loads (kit : TextKit) (tx : Transaction) : Prop :=
  ∃ loaded, transactionFromResultSet kit (DBTransactionRepository.row tx) 0 = .ok (some loaded)

theorem Loads.at (h : Loads kit tx) (now : Date) : ∃ loaded,
    transactionFromResultSet kit (DBTransactionRepository.row tx) now = .ok (some loaded) := by
  obtain ⟨loaded, hload⟩ := h
  obtain ⟨loaded', hload', -⟩ := load_at hload now
  exact ⟨loaded', hload'⟩

theorem loads_iff_exists : Loads kit tx ↔
    ∃ tx?, transactionFromResultSet kit (DBTransactionRepository.row tx) now = .ok tx? := by
  constructor
  · intro h
    obtain ⟨loaded, hload⟩ := h.at now
    exact ⟨some loaded, hload⟩
  · rintro ⟨tx?, hload⟩
    cases tx? with
    | none => exact absurd hload load_row_ne_none
    | some loaded =>
        obtain ⟨loaded', hload', -⟩ := load_at hload 0
        exact ⟨loaded', hload'⟩

theorem Legible.loads_iff (h : Legible kit tx) : Loads kit tx ↔ Ready tx.status tx := by
  simp only [Loads, h.load_iff, exists_and_left, exists_eq, and_true]

/-- What the service reports: the signers are addresses, each has signed once, and the
blockchain hash is a text without a NUL. -/
structure WellFormedRemote (remote : Transaction) : Prop where
  signers : ∀ signature ∈ remote.signatures, signature.address.WellFormed
  signatures : remote.signatures.Nodup
  transactionHash : ∀ text ∈ remote.transactionHash, '\x00' ∉ text.toList

/-- What a synchronisation looks at is loaded as it was written, whatever becomes of the
amounts. -/
structure LoadedAs (tx loaded : Transaction) : Prop where
  id : loaded.id = tx.id
  status : loaded.status = tx.status
  transactionHash : loaded.transactionHash = tx.transactionHash
  signatures : loaded.signatures = tx.signatures
  hash : loaded.hash = Column.nextData tx.hash

theorem WellFormedRemote.loadedAs (hremote : WellFormedRemote tx)
    (h : transactionFromResultSet kit (DBTransactionRepository.row tx) now = .ok (some loaded)) :
    LoadedAs tx loaded := by
  obtain ⟨columns, hcolumns, -, rfl⟩ := load_row_eq_some_iff.mp h
  have hsignatures : columns.signatures = tx.signatures := Except.ok.inj
    (hcolumns.signatures.symm.trans (deserializedSignatures_serialized hremote.signers))
  have hhash := map_nextString_eq_self_iff.mpr hremote.transactionHash
  refine ⟨rfl, rfl, (transactionHash_row tx).trans hhash, ?_, rfl⟩
  show added columns.signatures [] = tx.signatures
  rw [hsignatures, added_eq_self_iff.mpr hremote.signatures]

theorem Legible.loadedAs (hlegible : Legible kit tx)
    (h : transactionFromResultSet kit (DBTransactionRepository.row tx) now = .ok (some loaded)) :
    LoadedAs tx loaded := by
  obtain ⟨-, rfl⟩ := hlegible.load_iff.mp h
  exact ⟨rfl, rfl, rfl, rfl, (nextData_eq_self_iff.mpr hlegible.hash).symm⟩

/-- At every time the row is loaded as what was read from it, with the dates that were
written. -/
theorem exists_reloaded
    (h : transactionFromResultSet kit (DBTransactionRepository.row tx) now = .ok (some loaded)) :
    ∃ read, (Dated read ↔ Dated tx) ∧ ∀ now',
      transactionFromResultSet kit (DBTransactionRepository.row tx) now' =
        .ok (some (reloaded read now')) := by
  obtain ⟨columns, hcolumns, hready, rfl⟩ := load_row_eq_some_iff.mp h
  refine ⟨{ draftFrom (DBTransactionRepository.row tx) tx.type columns now with
    status := tx.status
    createdDate := tx.createdDate
    updatedDate := tx.updatedDate
    rejectedDate := tx.rejectedDate
    submittedDate := tx.submittedDate
    processedDate := tx.processedDate }, ⟨fun h => { h with }, fun h => { h with }⟩, fun now' => ?_⟩
  refine load_row_eq_some_iff.mpr ⟨columns, hcolumns, hready, ?_⟩
  have hupdated : (if tx.status = .draft then some now' else some now') = some now' := ite_self _
  simp only [loadedFrom, timestamp, replayed, draftFrom, DBTransactionRepository.row,
    Transaction.new, reloaded, hupdated]

end Loaded

/-! ## Updates that are loaded -/

/-- A stored and a reported transaction have together what the reported status asserts. -/
def Replayable (stored remote : Transaction) : Prop :=
  Ready remote.status { stored with
    transactionHash := remote.transactionHash.or stored.transactionHash }

/-- A stored and a reported transaction have together what the reported status asserts, and the
dates that belong to it. -/
structure Covered (tx remote : Transaction) : Prop where
  plain : ∀ text ∈ remote.transactionHash, '\x00' ∉ text.toList
  complete : remote.status ≠ .draft → Complete tx
  transactionHash : isSubmitted remote.status = true →
    (remote.transactionHash.or tx.transactionHash).isSome
  rejectedDate : remote.status = .rejected → (remote.rejectedDate.or tx.rejectedDate).isSome
  submittedDate : isSubmitted remote.status = true →
    (remote.submittedDate.or tx.submittedDate).isSome
  processedDate : isProcessed remote.status = true →
    (remote.processedDate.or tx.processedDate).isSome

section Merged

variable {kit : TextKit} {tx remote : Transaction} {now : Date}

theorem Legible.merged (h : Legible kit tx) (hremote : WellFormedRemote remote) :
    Legible kit (merged tx remote now) := by
  obtain ⟨date, hmerged⟩ := merged_spec tx now hremote.signatures
  rw [hmerged]
  constructor
  case reads =>
    exact { h.reads with
      signatures := deserializedSignatures_serialized hremote.signers }
  case signatures => exact hremote.signatures
  case transactionHash =>
    intro text htext
    rcases Option.or_eq_some_iff.mp (Option.mem_def.mp htext) with hnew | ⟨-, hold⟩
    · exact hremote.transactionHash text hnew
    · exact h.transactionHash text hold
  case hash => exact h.hash
  case data => exact h.data

theorem ready_merged_iff (hremote : remote.signatures.Nodup) :
    Ready (merged tx remote now).status (merged tx remote now) ↔ Replayable tx remote := by
  obtain ⟨date, hmerged⟩ := merged_spec tx now hremote
  rw [hmerged]
  exact ⟨fun h => h.of_same rfl rfl rfl rfl rfl, fun h => h.of_same rfl rfl rfl rfl rfl⟩

theorem isSome_takenOver_iff {date : Transaction → Option Date}
    (h : tx.status = remote.status → (date tx).isSome) :
    (takenOver tx remote date).isSome ↔ ((date remote).or (date tx)).isSome := by
  unfold takenOver
  split
  · rename_i heq
    simp [h heq]
  · rfl

/-- An update has the dates of its status exactly if both sides together have them. -/
theorem dated_merged_iff (h : Dated tx) (hremote : remote.signatures.Nodup) :
    Dated (merged tx remote now) ↔
      (remote.status = .rejected → (remote.rejectedDate.or tx.rejectedDate).isSome) ∧
      (isSubmitted remote.status = true → (remote.submittedDate.or tx.submittedDate).isSome) ∧
      (isProcessed remote.status = true → (remote.processedDate.or tx.processedDate).isSome) := by
  have hcreated := @isSome_takenOver_iff tx remote Transaction.createdDate fun _ => h.createdDate
  have hrejected (hstatus : remote.status = .rejected) :=
    @isSome_takenOver_iff tx remote Transaction.rejectedDate
      fun heq => h.rejectedDate (heq.trans hstatus)
  have hsubmitted (hstatus : isSubmitted remote.status = true) :=
    @isSome_takenOver_iff tx remote Transaction.submittedDate
      fun heq => h.submittedDate (heq ▸ hstatus)
  have hprocessed (hstatus : isProcessed remote.status = true) :=
    @isSome_takenOver_iff tx remote Transaction.processedDate
      fun heq => h.processedDate (heq ▸ hstatus)
  obtain ⟨date, hmerged⟩ := merged_spec tx now hremote
  rw [hmerged]
  constructor
  · intro h'
    exact ⟨fun hstatus => (hrejected hstatus).mp (h'.rejectedDate hstatus),
      fun hstatus => (hsubmitted hstatus).mp (h'.submittedDate hstatus),
      fun hstatus => (hprocessed hstatus).mp (h'.processedDate hstatus)⟩
  · rintro ⟨hrejectedDate, hsubmittedDate, hprocessedDate⟩
    exact ⟨hcreated.mpr (by simp [h.createdDate]),
      fun hstatus => (hrejected hstatus).mpr (hrejectedDate hstatus),
      fun hstatus => (hsubmitted hstatus).mpr (hsubmittedDate hstatus),
      fun hstatus => (hprocessed hstatus).mpr (hprocessedDate hstatus)⟩

theorem covered_iff (h : Dated tx) (hremote : remote.signatures.Nodup) :
    Covered tx remote ↔ (∀ text ∈ remote.transactionHash, '\x00' ∉ text.toList) ∧
      Replayable tx remote ∧ Dated (merged tx remote now) := by
  rw [dated_merged_iff h hremote]
  constructor
  · intro hcovered
    exact ⟨hcovered.plain, ⟨fun hstatus => { hcovered.complete hstatus with },
      hcovered.transactionHash⟩, hcovered.rejectedDate, hcovered.submittedDate,
      hcovered.processedDate⟩
  · rintro ⟨hplain, hready, hrejected, hsubmitted, hprocessed⟩
    exact ⟨hplain, fun hstatus => { hready.complete hstatus with }, hready.transactionHash,
      hrejected, hsubmitted, hprocessed⟩

end Merged

end DBTransactionRepository

end SafeWallet
