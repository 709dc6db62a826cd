/-
# Synchronising the repository

A synchronisation loads the repository, updates what is reported and saves all of it. A row
that cannot be loaded stops it, and so it stops at what another synchronisation has left: a
status is taken over whether or not the transaction has what the status asserts, and what is
reported is saved as it is. What is loaded before the next synchronisation has the time of the
load for the dates that are missing, and is saved with it.
-/

import SafeWallet.Repositories.LoadedTransactions
import SafeWallet.Repositories.TokenPersistence

namespace SafeWallet

open DBTransactionRepository

namespace TransactionSyncDomainService

variable (kit : TextKit) (services : Services) (service : Address → List RemoteTransaction)

/-- The transactions that are reported, ready to be merged. -/
def remoteTransactions (store : Store) (repository : Repository) : List Transaction :=
  match syncedSafe store with
  | none => []
  | some safe =>
    identified (withNewIDs services (repository.rows.map TransactionRow.id) (service safe))

/-- What is saved in the end. -/
def savedTransactions (remote locals : List Transaction) (now : Date) : List Transaction :=
  let stored := (identified locals).map (updated remote now)
  stored ++ newTransactions stored remote

/-- The repository after everything was saved. -/
def synced (remote locals : List Transaction) (now : Date) (repository : Repository) :
    Repository :=
  (savedTransactions remote locals now).foldl (fun repository tx => save tx repository) repository

/-- `sync()`. -/
def sync (now : Date) (store : Store) (repository : Repository) : Trapping Repository :=
  match syncedSafe store with
  | none => return repository
  | some _ => do
    let locals ← all kit repository now
    return synced (remoteTransactions services service store repository) locals now repository

/-! ## Reports -/

/-- The signers that a service reports are addresses, and its hashes are texts without a
NUL. -/
def WellFormedService : Prop :=
  ∀ safe, ∀ remote ∈ service safe, WellFormedRemote remote.transaction

/-- Reported transactions: they can be identified, and their identifiers are new. -/
structure Reported (repository : Repository) (remote : List Transaction) : Prop where
  identified : ∀ tx ∈ remote, tx.identifyingHash.isSome
  wellFormed : ∀ tx ∈ remote, WellFormedRemote tx
  ids_nodup : (remote.map Transaction.id).Nodup
  ids_new : ∀ tx ∈ remote, tx.id ∉ repository.rows.map TransactionRow.id

theorem Reported.signatures_nodup {repository : Repository} {remote : List Transaction}
    (h : Reported repository remote) : ∀ tx ∈ remote, tx.signatures.Nodup :=
  fun tx htx => (h.wellFormed tx htx).signatures

variable {kit services service}

/-- What is fetched is reported. -/
theorem reported_remoteTransactions (hservice : WellFormedService service) (store : Store)
    (repository : Repository) :
    Reported repository (remoteTransactions services service store repository) := by
  unfold remoteTransactions
  split
  · constructor <;> simp
  · rename_i safe _
    obtain ⟨-, hnodup, hnew, hsame⟩ := withNewIDs_spec services
      (repository.rows.map TransactionRow.id) (service safe)
    refine ⟨fun tx htx => (mem_identified.mp htx).2, fun tx htx => ?_,
      identified_map_nodup hnodup, fun tx htx => hnew tx (mem_identified.mp htx).1⟩
    have hmem := List.mem_map_of_mem (f := anonymous) (mem_identified.mp htx).1
    rw [hsame] at hmem
    obtain ⟨remote, hremote, heq⟩ := List.mem_map.mp hmem
    obtain ⟨hsigners, hsignatures, hhash⟩ := hservice safe remote hremote
    have hsame : remote.transaction.signatures = tx.signatures :=
      (congrArg Transaction.signatures heq :)
    have hsame' : remote.transaction.transactionHash = tx.transactionHash :=
      (congrArg Transaction.transactionHash heq :)
    exact ⟨hsame ▸ hsigners, hsame ▸ hsignatures, hsame' ▸ hhash⟩

/-- The same response is reported to another repository, under other identifiers. -/
theorem remoteTransactions_anonymous (store : Store) (repository repository' : Repository) :
    (remoteTransactions services service store repository).map anonymous =
      (remoteTransactions services service store repository').map anonymous := by
  unfold remoteTransactions
  split
  · rfl
  · have hsorted (txs : List Transaction) :
        identified (txs.map anonymous) = (identified txs).map anonymous :=
      identified_map (f := anonymous) (fun _ => rfl) txs
    rw [← hsorted, ← hsorted, (withNewIDs_spec _ _ _).2.2.2, (withNewIDs_spec _ _ _).2.2.2]

/-! ## One synchronisation -/

section Synced

variable {repository : Repository} {remote locals txs : List Transaction}
  {tx stored loaded : Transaction} {row : TransactionRow} {now now' : Date}

theorem identifyingHash_of_load_at {loaded' : Transaction}
    (h : transactionFromResultSet kit row now = .ok (some loaded))
    (h' : transactionFromResultSet kit row now' = .ok (some loaded')) :
    loaded'.identifyingHash = loaded.identifyingHash := by
  obtain ⟨other, hother, hsame⟩ := load_at h now'
  cases h'.symm.trans hother
  exact (congrArg Transaction.identifyingHash hsame :)

/-- A transaction can be updated as it can be stored. -/
theorem legible_updated (hreported : Reported repository remote) (h : Legible kit stored) :
    Legible kit (updated remote now stored) := by
  unfold updated
  split
  · rename_i found hmatch
    exact h.merged (hreported.wellFormed found (matching_spec hmatch).1)
  · exact h

section Run

variable (hall : all kit repository now = .ok locals) (hreported : Reported repository remote)

include hall in
theorem legible_of_mem (h : tx ∈ locals) : Legible kit tx := by
  obtain ⟨row, -, hload⟩ := (mem_all_iff hall).mp h
  exact legible_of_load hload

include hreported in
theorem mem_savedTransactions_iff : tx ∈ savedTransactions remote locals now ↔
    (∃ stored ∈ identified locals, updated remote now stored = tx) ∨
      tx ∈ remote ∧ ¬ Known locals tx := by
  have hsame : ((identified locals).map (updated remote now)).map Transaction.identifyingHash =
      (identified locals).map Transaction.identifyingHash := by
    rw [List.map_map]
    apply List.map_congr_left
    intro stored _
    exact (updated_spec hreported.signatures_nodup stored now).2.2.2
  have hnew : newTransactions ((identified locals).map (updated remote now)) remote =
      newTransactions (identified locals) remote := by
    rw [newTransactions, newTransactions, hsame]
  rw [savedTransactions, List.mem_append, List.mem_map, hnew, mem_newTransactions_iff]

include hall hreported

/-- What is saved has different identifiers. -/
theorem savedTransactions_ids_nodup :
    ((savedTransactions remote locals now).map Transaction.id).Nodup := by
  have hids : ((identified locals).map (updated remote now)).map Transaction.id =
      (identified locals).map Transaction.id := by
    rw [List.map_map]
    apply List.map_congr_left
    intro stored _
    exact (updated_spec hreported.signatures_nodup stored now).1
  rw [savedTransactions, List.map_append, hids, List.nodup_append]
  refine ⟨identified_map_nodup (ids_nodup hall),
    hreported.ids_nodup.sublist (List.filter_sublist.map _), ?_⟩
  intro id hid id' hid' heq
  obtain ⟨stored, hstored, rfl⟩ := List.mem_map.mp hid
  obtain ⟨tx, htx, rfl⟩ := List.mem_map.mp hid'
  apply hreported.ids_new tx (List.mem_filter.mp htx).1
  rw [← heq]
  exact (ids_sublist hall).subset (List.mem_map_of_mem (mem_identified.mp hstored).1)

theorem mem_rows_synced : row ∈ (synced remote locals now repository).rows ↔
    (∃ tx ∈ savedTransactions remote locals now, DBTransactionRepository.row tx = row) ∨
      row ∈ repository.rows ∧ row.id ∉ (savedTransactions remote locals now).map Transaction.id := by
  have hsave : synced remote locals now repository = repository.saveAll
      ((savedTransactions remote locals now).map DBTransactionRepository.row) := by
    rw [synced, Table.saveAll, List.foldl_map]
    rfl
  have hkeys : ((savedTransactions remote locals now).map DBTransactionRepository.row).map
      TransactionRow.id = (savedTransactions remote locals now).map Transaction.id := by
    rw [List.map_map]
    rfl
  rw [hsave, Table.mem_rows_saveAll (hkeys ▸ savedTransactions_ids_nodup hall hreported), hkeys,
    List.mem_map]

theorem find_synced_of_mem (h : tx ∈ savedTransactions remote locals now) :
    (synced remote locals now repository).find tx.id = some (DBTransactionRepository.row tx) :=
  Table.find_of_mem ((mem_rows_synced hall hreported).mpr (.inl ⟨tx, h, rfl⟩))

theorem find_synced_of_not_mem {id : TransactionID}
    (h : id ∉ (savedTransactions remote locals now).map Transaction.id) :
    (synced remote locals now repository).find id = repository.find id := by
  ext row
  rw [Table.find_eq_some_iff, Table.find_eq_some_iff, mem_rows_synced hall hreported]
  constructor
  · rintro ⟨⟨tx, htx, rfl⟩ | ⟨hrow, -⟩, rfl⟩
    · exact absurd (List.mem_map_of_mem htx) h
    · exact ⟨hrow, rfl⟩
  · rintro ⟨hrow, rfl⟩
    exact ⟨.inr ⟨hrow, h⟩, rfl⟩

/-- A row stays exactly if it has nothing by which its transaction could be found. -/
theorem kept_row_iff (hrow : row ∈ repository.rows)
    (hload : transactionFromResultSet kit row now' = .ok (some loaded)) :
    row.id ∉ (savedTransactions remote locals now).map Transaction.id ↔
      loaded.identifyingHash = none := by
  obtain ⟨local', hlocal, -⟩ := load_at hload now
  have hmem : local' ∈ locals := (mem_all_iff hall).mpr ⟨row, hrow, hlocal⟩
  rw [identifyingHash_of_load_at hlocal hload, ← id_of_load hlocal]
  constructor
  · intro hnot
    by_contra hsome
    have hidentified : local' ∈ identified locals :=
      mem_identified.mpr ⟨hmem, Option.isSome_iff_ne_none.mpr hsome⟩
    refine hnot (List.mem_map.mpr ⟨_, (mem_savedTransactions_iff hreported).mpr
      (.inl ⟨local', hidentified, rfl⟩), ?_⟩)
    exact (updated_spec hreported.signatures_nodup local' now).1
  · intro hnone hid
    obtain ⟨saved, hsaved, hsame⟩ := List.mem_map.mp hid
    rcases (mem_savedTransactions_iff hreported).mp hsaved with ⟨stored, hstored, rfl⟩ |
      ⟨hremote, -⟩
    · rw [(updated_spec hreported.signatures_nodup stored now).1] at hsame
      have hsome := (mem_identified.mp hstored).2
      rw [eq_of_mem_all hall (mem_identified.mp hstored).1 hmem hsame, hnone] at hsome
      cases hsome
    · apply hreported.ids_new saved hremote
      rw [hsame, id_of_load hlocal]
      exact List.mem_map_of_mem hrow

/-- After a synchronisation the repository can be loaded exactly if everything that was saved
can. -/
theorem exists_all_synced_iff :
    (∃ txs, all kit (synced remote locals now repository) now' = .ok txs) ↔
      ∀ tx ∈ savedTransactions remote locals now, Loads kit tx := by
  rw [exists_all_iff]
  constructor
  · intro h tx htx
    exact loads_iff_exists.mpr (h _ ((mem_rows_synced hall hreported).mpr (.inl ⟨tx, htx, rfl⟩)))
  · intro h row hrow
    rcases (mem_rows_synced hall hreported).mp hrow with ⟨tx, htx, rfl⟩ | ⟨hrow, -⟩
    · exact loads_iff_exists.mp (h tx htx)
    · exact exists_load_at (exists_all_iff.mp ⟨locals, hall⟩ row hrow) now'

/-- What is loaded after a synchronisation: what was saved, and what cannot be identified. -/
theorem mem_all_synced_iff (h : all kit (synced remote locals now repository) now' = .ok txs) :
    loaded ∈ txs ↔ (∃ tx ∈ savedTransactions remote locals now,
        transactionFromResultSet kit (DBTransactionRepository.row tx) now' = .ok (some loaded)) ∨
      (∃ row ∈ repository.rows, transactionFromResultSet kit row now' = .ok (some loaded)) ∧
        loaded.identifyingHash = none := by
  rw [mem_all_iff h]
  constructor
  · rintro ⟨row, hrow, hload⟩
    rcases (mem_rows_synced hall hreported).mp hrow with ⟨tx, htx, rfl⟩ | ⟨hrow, hnot⟩
    · exact .inl ⟨tx, htx, hload⟩
    · exact .inr ⟨⟨row, hrow, hload⟩, (kept_row_iff hall hreported hrow hload).mp hnot⟩
  · rintro (⟨tx, htx, hload⟩ | ⟨⟨row, hrow, hload⟩, hnone⟩)
    · exact ⟨_, (mem_rows_synced hall hreported).mpr (.inl ⟨tx, htx, rfl⟩), hload⟩
    · exact ⟨row, (mem_rows_synced hall hreported).mpr
        (.inr ⟨hrow, (kept_row_iff hall hreported hrow hload).mpr hnone⟩), hload⟩

end Run

/-- A stored transaction is loaded after its update exactly if it has what the reported status
asserts. -/
theorem loads_updated_iff (hall : all kit repository now = .ok locals)
    (hreported : Reported repository remote) (h : stored ∈ locals) :
    Loads kit (updated remote now stored) ↔
      ∀ found ∈ matching remote stored, Replayable stored found := by
  obtain ⟨row, -, hload⟩ := (mem_all_iff hall).mp h
  unfold updated
  cases hmatch : matching remote stored with
  | none =>
      exact iff_of_true ⟨stored, load_row_of_load hload 0⟩ (by simp)
  | some found =>
      have hfound := hreported.wellFormed found (matching_spec hmatch).1
      have hmerged : Loads kit (merged stored found now) ↔ _ :=
        ((legible_of_load hload).merged hfound).loads_iff
      rw [hmerged, ready_merged_iff hfound.signatures]
      simp

end Synced

/-! ## Synchronising twice -/

/-- What is found under an identifier, without the moment of its update. -/
def foundUnstamped (kit : TextKit) (repository : Repository) (id : TransactionID) (now : Date) :
    Trapping (Option Transaction) := do
  return (← find kit repository id now).map unstamped

/-- The same transactions are found at every time, up to the moments of their last updates. -/
def SameStored (kit : TextKit) (first second : Repository) : Prop :=
  ∀ id now, foundUnstamped kit first id now = foundUnstamped kit second id now

/-- A second synchronisation returns, and leaves the transactions as the first one did. -/
def Repeats (kit : TextKit) (services : Services) (service : Address → List RemoteTransaction)
    (store : Store) (repository : Repository) (now now' : Date) : Prop :=
  ∀ once, sync kit services service now store repository = .ok once →
    ∃ twice, sync kit services service now' store once = .ok twice ∧ SameStored kit twice once

/-- A reported transaction can still be identified when it is read back: without a
blockchain hash its own hash must not be empty. -/
def Kept (tx : Transaction) : Prop := tx.transactionHash ≠ none ∨ tx.hash ≠ some []

/-- What is updated covers its new status. What is added can be loaded and is found again as it
is: one with its identifying hash is kept, its dates are there, and the first one that has its
identifying hash agrees with it. -/
structure Repeatable (kit : TextKit) (locals remote : List Transaction) : Prop where
  covered : ∀ stored ∈ identified locals, ∀ found ∈ matching remote stored, Covered stored found
  loads : ∀ tx ∈ remote, ¬ Known locals tx → Loads kit tx
  kept : ∀ tx ∈ remote, ¬ Known locals tx →
    ∃ tx' ∈ remote, tx'.identifyingHash = tx.identifyingHash ∧ Kept tx'
  agrees : ∀ tx ∈ remote, ¬ Known locals tx → Kept tx →
    Dated tx ∧ ∀ first ∈ matching remote tx, Agrees first tx

section LoadedAs

variable {tx loaded found : Transaction} {txs : List Transaction}

theorem identifyingHash_of_loadedAs (h : LoadedAs tx loaded) (hkept : Kept tx) :
    loaded.identifyingHash = tx.identifyingHash := by
  have hhash := h.hash
  rw [Transaction.identifyingHash, Transaction.identifyingHash, h.transactionHash]
  cases htext : tx.transactionHash with
  | some text => rfl
  | none =>
      rw [nextData_eq_self_iff.mpr (hkept.resolve_left (by simp [htext]))] at hhash
      simp only [hhash]

theorem identifyingHash_of_not_kept (h : LoadedAs tx loaded) (hkept : ¬ Kept tx) :
    loaded.identifyingHash = none := by
  have hboth : tx.transactionHash = none ∧ tx.hash = some [] := by
    simpa [Kept, not_or] using hkept
  simp [Transaction.identifyingHash, h.transactionHash, h.hash, hboth.1, hboth.2, Column.nextData]

theorem matching_congr (h : loaded.identifyingHash = tx.identifyingHash) :
    matching txs loaded = matching txs tx := by
  rw [matching, matching, h]

theorem agrees_of_loadedAs_iff (h : LoadedAs tx loaded) : Agrees found loaded ↔ Agrees found tx := by
  rw [Agrees, Agrees, h.transactionHash, h.status, h.signatures]

end LoadedAs

section Twice

variable {repository : Repository} {first second locals locals' : List Transaction}
  {tx stored loaded : Transaction} {now now' : Date}

theorem loadedAs_of_saved (hall : all kit repository now = .ok locals)
    (hreported : Reported repository first) (htx : tx ∈ savedTransactions first locals now)
    (hload : transactionFromResultSet kit (DBTransactionRepository.row tx) now' =
      .ok (some loaded)) : LoadedAs tx loaded := by
  rcases (mem_savedTransactions_iff hreported).mp htx with ⟨stored, hstored, rfl⟩ | ⟨hremote, -⟩
  · exact (legible_updated hreported
      (legible_of_mem hall (mem_identified.mp hstored).1)).loadedAs hload
  · exact (hreported.wellFormed tx hremote).loadedAs hload

/-- What was stored can be identified after its update. -/
theorem kept_updated (hall : all kit repository now = .ok locals)
    (hreported : Reported repository first) (hstored : stored ∈ locals) :
    Kept (updated first now stored) := by
  rw [Kept, (updated_spec hreported.signatures_nodup stored now).2.1]
  exact .inr (legible_of_mem hall hstored).hash

theorem identifyingHash_of_saved (hreported : Reported repository first)
    (htx : tx ∈ savedTransactions first locals now) : tx.identifyingHash.isSome := by
  rcases (mem_savedTransactions_iff hreported).mp htx with ⟨stored, hstored, rfl⟩ | ⟨hremote, -⟩
  · rw [(updated_spec hreported.signatures_nodup stored now).2.2.2]
    exact (mem_identified.mp hstored).2
  · exact hreported.identified tx hremote

/-- What is loaded at a time from the row of a legible transaction, up to its update. -/
theorem load_map_unstamped_eq_iff {other : Transaction} {time : Date} (h : Legible kit tx) :
    (transactionFromResultSet kit (DBTransactionRepository.row tx) time).map
        (Option.map unstamped) = .ok (some (unstamped other)) ↔
      Ready tx.status tx ∧ unstamped (reloaded tx time) = unstamped other := by
  constructor
  · intro heq
    cases hload : transactionFromResultSet kit (DBTransactionRepository.row tx) time with
    | error trap =>
        rw [hload] at heq
        cases heq
    | ok again =>
        rw [hload] at heq
        cases again with
        | none => cases heq
        | some again =>
            obtain ⟨hready, rfl⟩ := h.load_iff.mp hload
            exact ⟨hready, Option.some.inj (Except.ok.inj heq)⟩
  · rintro ⟨hready, hsame⟩
    rw [h.load_iff.mpr ⟨hready, rfl⟩, ← hsame]
    rfl

/-- The moment of a load adds dates only, and the match of a transaction shows in its other
fields. -/
theorem agrees_of_reloaded_updated {time : Date} (hreported : Reported repository second)
    (h : unstamped (reloaded (updated second now' loaded) time) = unstamped loaded) :
    ∀ found ∈ matching second loaded, Agrees found loaded := by
  intro found hfound
  have hsignatures := hreported.signatures_nodup found (matching_spec hfound).1
  have hmerged : updated second now' loaded = merged loaded found now' := by
    rw [updated, hfound]
  have hagrees := @agrees_merged loaded found now' hsignatures
  rw [← hmerged] at hagrees
  have hhash : (updated second now' loaded).transactionHash = loaded.transactionHash :=
    (congrArg Transaction.transactionHash h :)
  have hstatus : (updated second now' loaded).status = loaded.status :=
    (congrArg Transaction.status h :)
  have hsigned : (updated second now' loaded).signatures = loaded.signatures :=
    (congrArg Transaction.signatures h :)
  rwa [Agrees, hhash, hstatus, hsigned] at hagrees

theorem ready_of_unstamped {other : Transaction} (h : Ready tx.status tx)
    (hsame : unstamped other = unstamped tx) : Ready other.status other := by
  have hstatus : other.status = tx.status := (congrArg Transaction.status hsame :)
  rw [hstatus]
  exact h.of_same (congrArg Transaction.sender hsame :) (congrArg Transaction.recipient hsame :)
    (congrArg Transaction.amount hsame :) (congrArg Transaction.fee hsame :)
    (congrArg (fun tx => tx.transactionHash.isSome) hsame :)

/-- One transaction is the same after both synchronisations exactly if it has its dates, so
that the second one saves those that are loaded at any time, and if its match agrees with
it. -/
theorem stable_iff (hreported : Reported repository second)
    (hload : transactionFromResultSet kit (DBTransactionRepository.row tx) now' =
      .ok (some loaded)) :
    (∀ time, (transactionFromResultSet kit
          (DBTransactionRepository.row (updated second now' loaded)) time).map
        (Option.map unstamped) =
      (transactionFromResultSet kit (DBTransactionRepository.row tx) time).map
        (Option.map unstamped)) ↔
      Dated tx ∧ ∀ found ∈ matching second loaded, Agrees found loaded := by
  obtain ⟨read, hdated, hread⟩ := exists_reloaded hload
  have hloaded : loaded = reloaded read now' := by
    cases hload.symm.trans (hread now')
    rfl
  obtain ⟨hloadedDates, -⟩ := dated_of_load hload
  have hupdated : Legible kit (updated second now' loaded) :=
    legible_updated hreported (legible_of_load hload)
  have hfixed : unstamped (updated second now' loaded) = unstamped loaded ↔
      ∀ found ∈ matching second loaded, Agrees found loaded :=
    unstamped_updated_iff hreported.signatures_nodup loaded
  -- If the match agrees, the update is loaded at every time as what was loaded.
  have hagain (heq : unstamped (updated second now' loaded) = unstamped loaded) (time : Date) :
      unstamped (reloaded (updated second now' loaded) time) = unstamped loaded :=
    (unstamped_reloaded_iff.mpr (hloadedDates.of_unstamped heq)).trans heq
  have htimes (time : Date) : _ ↔ Ready _ _ ∧ unstamped _ = unstamped (reloaded read time) :=
    @load_map_unstamped_eq_iff kit _ (reloaded read time) time hupdated
  constructor
  · intro h
    have hsame (time : Date) : unstamped (reloaded (updated second now' loaded) time) =
        unstamped (reloaded read time) :=
      ((htimes time).mp ((h time).trans (by rw [hread time]; rfl))).2
    have hagrees : ∀ found ∈ matching second loaded, Agrees found loaded :=
      agrees_of_reloaded_updated hreported ((hsame now').trans (by rw [← hloaded]))
    refine ⟨hdated.mp (@dated_of_unstamped_reloaded read now' ?_), hagrees⟩
    rw [← hsame, ← hloaded]
    exact hagain (hfixed.mpr hagrees) (now' + 1)
  · rintro ⟨htx, hagrees⟩ time
    have heq := hfixed.mpr hagrees
    have hfilled (now : Date) : unstamped (reloaded read now) = unstamped read :=
      unstamped_reloaded_iff.mpr (hdated.mpr htx)
    have hrow : (transactionFromResultSet kit (DBTransactionRepository.row tx) time).map
        (Option.map unstamped) = .ok (some (unstamped (reloaded read time))) := by
      rw [hread time]
      rfl
    rw [hrow, htimes time, hagain heq, hloaded, hfilled, hfilled]
    exact ⟨ready_of_unstamped (ready_of_load hload) (hloaded ▸ heq), rfl⟩

/-- What is updated has its dates and agrees with its match exactly if the reported dates
cover it. -/
theorem settled_updated_iff (hall : all kit repository now = .ok locals)
    (hreported : Reported repository first) (hstored : stored ∈ locals) :
    (Loads kit (updated first now stored) ∧ Dated (updated first now stored) ∧
        ∀ found ∈ matching first (updated first now stored),
          Agrees found (updated first now stored)) ↔
      ∀ found ∈ matching first stored, Covered stored found := by
  obtain ⟨row, -, hload⟩ := (mem_all_iff hall).mp hstored
  obtain ⟨hdated, -⟩ := dated_of_load hload
  have hagrees : ∀ found ∈ matching first (updated first now stored),
      Agrees found (updated first now stored) :=
    (unstamped_updated_iff hreported.signatures_nodup _).mp
      (@unstamped_updated_updated now first now hreported.signatures_nodup stored)
  rw [loads_updated_iff hall hreported hstored, and_iff_left hagrees]
  unfold updated
  cases hmatch : matching first stored with
  | none => simp [hdated]
  | some found =>
      have hfound := hreported.wellFormed found (matching_spec hmatch).1
      simp only [Option.mem_def, Option.some.injEq, forall_eq']
      rw [@covered_iff stored found now hdated hfound.signatures, and_iff_right hfound.transactionHash]

theorem loads_of_repeatable (hall : all kit repository now = .ok locals)
    (hreported : Reported repository first) (h : Repeatable kit locals first) :
    ∀ tx ∈ savedTransactions first locals now, Loads kit tx := by
  intro tx htx
  rcases (mem_savedTransactions_iff hreported).mp htx with ⟨stored, hstored, rfl⟩ | ⟨hnew, hnot⟩
  · exact ((settled_updated_iff hall hreported (mem_identified.mp hstored).1).mpr
      (h.covered stored hstored)).1
  · exact h.loads tx hnew hnot

section Again

variable (hall : all kit repository now = .ok locals) (hreported : Reported repository first)
  (hall' : all kit (synced first locals now repository) now' = .ok locals')

include hall hreported hall'

/-- What can be identified after a synchronisation was saved by it. -/
theorem mem_identified_synced_iff : loaded ∈ identified locals' ↔
    ∃ tx ∈ savedTransactions first locals now, Kept tx ∧
      transactionFromResultSet kit (DBTransactionRepository.row tx) now' = .ok (some loaded) := by
  rw [mem_identified, mem_all_synced_iff hall hreported hall']
  constructor
  · rintro ⟨⟨tx, htx, hload⟩ | ⟨-, hnone⟩, hsome⟩
    · refine ⟨tx, htx, ?_, hload⟩
      by_contra hkept
      rw [identifyingHash_of_not_kept (loadedAs_of_saved hall hreported htx hload) hkept] at hsome
      cases hsome
    · rw [hnone] at hsome
      cases hsome
  · rintro ⟨tx, htx, hkept, hload⟩
    refine ⟨.inl ⟨tx, htx, hload⟩, ?_⟩
    rw [identifyingHash_of_loadedAs (loadedAs_of_saved hall hreported htx hload) hkept]
    exact identifyingHash_of_saved hreported htx

/-- The second synchronisation adds nothing exactly if the new hashes are kept. -/
theorem known_synced_iff : Known locals' tx ↔ Known locals tx ∨
    ∃ new ∈ first, ¬ Known locals new ∧ Kept new ∧ new.identifyingHash = tx.identifyingHash := by
  have hloads := (exists_all_synced_iff hall hreported).mp ⟨locals', hall'⟩
  constructor
  · rintro ⟨again, hagain, heq⟩
    obtain ⟨saved, hsaved, hkept, hload⟩ :=
      (mem_identified_synced_iff hall hreported hall').mp hagain
    rw [identifyingHash_of_loadedAs (loadedAs_of_saved hall hreported hsaved hload) hkept] at heq
    rcases (mem_savedTransactions_iff hreported).mp hsaved with ⟨stored, hstored, rfl⟩ |
      ⟨hnew, hnot⟩
    · rw [(updated_spec hreported.signatures_nodup stored now).2.2.2] at heq
      exact .inl ⟨stored, hstored, heq⟩
    · exact .inr ⟨saved, hnew, hnot, hkept, heq⟩
  · have hfound (saved : Transaction) (hsaved : saved ∈ savedTransactions first locals now)
        (hkept : Kept saved) (heq : saved.identifyingHash = tx.identifyingHash) :
        Known locals' tx := by
      obtain ⟨again, hload⟩ := (hloads saved hsaved).at now'
      refine ⟨again, (mem_identified_synced_iff hall hreported hall').mpr
        ⟨saved, hsaved, hkept, hload⟩, ?_⟩
      rw [identifyingHash_of_loadedAs (loadedAs_of_saved hall hreported hsaved hload) hkept, heq]
    rintro (⟨stored, hstored, heq⟩ | ⟨new, hnew, hnot, hkept, heq⟩)
    · refine hfound _ ((mem_savedTransactions_iff hreported).mpr (.inl ⟨stored, hstored, rfl⟩))
        (kept_updated hall hreported (mem_identified.mp hstored).1) ?_
      rw [(updated_spec hreported.signatures_nodup stored now).2.2.2, heq]
    · exact hfound new ((mem_savedTransactions_iff hreported).mpr (.inr ⟨hnew, hnot⟩)) hkept heq

section Second

variable (hreported' : Reported (synced first locals now repository) second)
  (hsame : first.map anonymous = second.map anonymous)

include hreported' hsame

/-- What was saved is found as it was exactly if it has its dates and agrees with its match. -/
theorem found_again_iff (htx : tx ∈ savedTransactions first locals now) (hkept : Kept tx)
    (hload : transactionFromResultSet kit (DBTransactionRepository.row tx) now' =
      .ok (some loaded)) :
    (∀ time, foundUnstamped kit (synced second locals' now'
        (synced first locals now repository)) tx.id time =
      foundUnstamped kit (synced first locals now repository) tx.id time) ↔
    Dated tx ∧ ∀ found ∈ matching first tx, Agrees found tx := by
  have hloadedAs := loadedAs_of_saved hall hreported htx hload
  have hmatching := @matching_congr tx loaded first
    (identifyingHash_of_loadedAs hloadedAs hkept)
  have hid : (updated second now' loaded).id = tx.id :=
    (updated_spec hreported'.signatures_nodup loaded now').1.trans hloadedAs.id
  have hsaved : updated second now' loaded ∈ savedTransactions second locals' now' :=
    (mem_savedTransactions_iff hreported').mpr (.inl ⟨loaded,
      (mem_identified_synced_iff hall hreported hall').mpr ⟨tx, htx, hkept, hload⟩, rfl⟩)
  have htwice := find_synced_of_mem hall' hreported' hsaved
  rw [hid] at htwice
  have honce := find_synced_of_mem hall hreported htx
  have hagrees : (∀ found ∈ matching second loaded, Agrees found loaded) ↔
      ∀ found ∈ matching first tx, Agrees found tx := by
    have hsecond := @unstamped_updated_iff now' second hreported'.signatures_nodup loaded
    have hfirst := @unstamped_updated_iff now' first hreported.signatures_nodup loaded
    rw [← updated_congr hsame, hfirst, hmatching] at hsecond
    simp only [agrees_of_loadedAs_iff hloadedAs] at hsecond
    simp only [agrees_of_loadedAs_iff hloadedAs]
    exact hsecond.symm
  rw [← hagrees, ← stable_iff hreported' hload]
  simp only [foundUnstamped, find, htwice, honce]
  rfl

/-- The second synchronisation changes nothing exactly if it adds nothing and what was saved has
its dates and agrees with its match. -/
theorem sameStored_synced_iff :
    SameStored kit (synced second locals' now' (synced first locals now repository))
        (synced first locals now repository) ↔
      (∀ copy ∈ second, Known locals' copy) ∧
        ∀ tx ∈ savedTransactions first locals now, Kept tx →
          Dated tx ∧ ∀ found ∈ matching first tx, Agrees found tx := by
  constructor
  · intro h
    constructor
    · intro copy hcopy
      by_contra hnew
      -- The copy is stored once more, under an identifier that was not there.
      have hsaved : copy ∈ savedTransactions second locals' now' :=
        (mem_savedTransactions_iff hreported').mpr (.inr ⟨hcopy, hnew⟩)
      have htwice := find_synced_of_mem hall' hreported' hsaved
      have honce : (synced first locals now repository).find copy.id = none := by
        rw [Table.find_eq_none_iff]
        intro row hrow hid
        exact hreported'.ids_new copy hcopy (hid ▸ List.mem_map_of_mem hrow)
      have hfound := h copy.id 0
      simp only [foundUnstamped, find, htwice, honce, Trapping.pure_eq_ok, Trapping.ok_bind,
        Option.map_none, Trapping.bind_eq_ok_iff, Except.ok.injEq, Option.map_eq_none_iff] at hfound
      obtain ⟨_, hload, rfl⟩ := hfound
      exact load_row_ne_none hload
    · intro tx htx hkept
      obtain ⟨loaded, hload⟩ :=
        ((exists_all_synced_iff hall hreported).mp ⟨locals', hall'⟩ tx htx).at now'
      exact (found_again_iff hall hreported hall' hreported' hsame htx hkept hload).mp (h tx.id)
  · rintro ⟨hknown, hsettled⟩ id time
    by_cases hid : id ∈ (savedTransactions second locals' now').map Transaction.id
    · obtain ⟨saved, hsaved, rfl⟩ := List.mem_map.mp hid
      rcases (mem_savedTransactions_iff hreported').mp hsaved with ⟨loaded, hloaded, rfl⟩ |
        ⟨hcopy, hnew⟩
      · obtain ⟨tx, htx, hkept, hload⟩ :=
          (mem_identified_synced_iff hall hreported hall').mp hloaded
        rw [(updated_spec hreported'.signatures_nodup loaded now').1,
          (loadedAs_of_saved hall hreported htx hload).id]
        exact (found_again_iff hall hreported hall' hreported' hsame htx hkept hload).mpr
          (hsettled tx htx hkept) time
      · exact absurd (hknown saved hcopy) hnew
    · rw [foundUnstamped, foundUnstamped, find, find,
        find_synced_of_not_mem hall' hreported' hid]

theorem repeatable_of_sameStored (h : SameStored kit
    (synced second locals' now' (synced first locals now repository))
    (synced first locals now repository)) : Repeatable kit locals first := by
  have hloads := (exists_all_synced_iff hall hreported).mp ⟨locals', hall'⟩
  obtain ⟨hknown, hsettled⟩ :=
    (sameStored_synced_iff hall hreported hall' hreported' hsame).mp h
  have hadded {tx : Transaction} (htx : tx ∈ first) (hnot : ¬ Known locals tx) :
      tx ∈ savedTransactions first locals now :=
    (mem_savedTransactions_iff hreported).mpr (.inr ⟨htx, hnot⟩)
  constructor
  case covered =>
    intro stored hstored
    have hlocal := (mem_identified.mp hstored).1
    have hupdated : updated first now stored ∈ savedTransactions first locals now :=
      (mem_savedTransactions_iff hreported).mpr (.inl ⟨stored, hstored, rfl⟩)
    exact (settled_updated_iff hall hreported hlocal).mp
      ⟨hloads _ hupdated, hsettled _ hupdated (kept_updated hall hreported hlocal)⟩
  case loads => exact fun tx htx hnot => hloads tx (hadded htx hnot)
  case kept =>
    intro tx htx hnot
    obtain ⟨copy, hcopy, hidentifying⟩ := exists_copy hsame htx
    rcases (known_synced_iff hall hreported hall').mp (hknown copy hcopy) with
      ⟨old, hold, hother⟩ | ⟨new, hnew, -, hkept, hother⟩
    · exact absurd ⟨old, hold, hother.trans hidentifying⟩ hnot
    · exact ⟨new, hnew, hother.trans hidentifying, hkept⟩
  case agrees => exact fun tx htx hnot => hsettled tx (hadded htx hnot)

theorem sameStored_of_repeatable (h : Repeatable kit locals first) : SameStored kit
    (synced second locals' now' (synced first locals now repository))
    (synced first locals now repository) := by
  refine (sameStored_synced_iff hall hreported hall' hreported' hsame).mpr ⟨?_, ?_⟩
  · intro copy hcopy
    obtain ⟨tx, htx, hidentifying⟩ := exists_copy hsame.symm hcopy
    rw [known_synced_iff hall hreported hall']
    by_cases hknown : Known locals tx
    · obtain ⟨old, hold, hother⟩ := hknown
      exact .inl ⟨old, hold, hother.trans hidentifying⟩
    · obtain ⟨new, hnew, hother, hkept⟩ := h.kept tx htx hknown
      refine .inr ⟨new, hnew, ?_, hkept, hother.trans hidentifying⟩
      rintro ⟨old, hold, hold'⟩
      exact hknown ⟨old, hold, hold'.trans hother⟩
  · intro tx htx hkept
    rcases (mem_savedTransactions_iff hreported).mp htx with ⟨stored, hstored, rfl⟩ |
      ⟨hnew, hnot⟩
    · exact ((settled_updated_iff hall hreported (mem_identified.mp hstored).1).mpr
        (h.covered stored hstored)).2
    · exact h.agrees tx hnew hnot hkept

end Second

end Again

/-- What a second synchronisation does, as long as the first one could be loaded. -/
theorem exists_sameStored_iff (hall : all kit repository now = .ok locals)
    (hreported : Reported repository first)
    (hreported' : Reported (synced first locals now repository) second)
    (hsame : first.map anonymous = second.map anonymous) :
    (∃ locals', all kit (synced first locals now repository) now' = .ok locals' ∧
      SameStored kit (synced second locals' now' (synced first locals now repository))
        (synced first locals now repository)) ↔ Repeatable kit locals first := by
  constructor
  · rintro ⟨locals', hall', hstored⟩
    exact repeatable_of_sameStored hall hreported hall' hreported' hsame hstored
  · intro h
    obtain ⟨locals', hall'⟩ := (@exists_all_synced_iff kit _ _ _ now now' hall hreported).mpr
      (loads_of_repeatable hall hreported h)
    exact ⟨locals', hall', sameStored_of_repeatable hall hreported hall' hreported' hsame h⟩

theorem repeats_iff (hservice : WellFormedService service) (store : Store) :
    Repeats kit services service store repository now now' ↔
      ∀ locals, all kit repository now = .ok locals →
        Repeatable kit locals (remoteTransactions services service store repository) := by
  have hreported := @reported_remoteTransactions services service hservice store repository
  cases hsafe : syncedSafe store with
  | none =>
      have hempty : remoteTransactions services service store repository = [] := by
        rw [remoteTransactions, hsafe]
      have hsync (now : Date) (repository : Repository) :
          sync kit services service now store repository = .ok repository := by
        rw [sync, hsafe, Trapping.pure_eq_ok]
      refine iff_of_true (fun once honce => ⟨once, hsync now' once, fun id time => rfl⟩)
        fun locals hall => ?_
      rw [hempty]
      constructor <;> simp [matching]
  | some safe =>
      have hsync (now : Date) {repository once : Repository} :
          sync kit services service now store repository = .ok once ↔
            ∃ locals, all kit repository now = .ok locals ∧
              synced (remoteTransactions services service store repository) locals now
                repository = once := by
        simp only [sync, hsafe, Trapping.bind_eq_ok_iff, Trapping.pure_eq_ok, Except.ok.injEq]
      have hrepeats : Repeats kit services service store repository now now' ↔
          ∀ locals, all kit repository now = .ok locals →
            ∃ locals', all kit (synced (remoteTransactions services service store repository)
                locals now repository) now' = .ok locals' ∧
              SameStored kit (synced (remoteTransactions services service store
                  (synced (remoteTransactions services service store repository) locals now
                    repository)) locals' now'
                  (synced (remoteTransactions services service store repository) locals now
                    repository))
                (synced (remoteTransactions services service store repository) locals now
                  repository) := by
        constructor
        · intro h locals hall
          obtain ⟨twice, htwice, hstored⟩ := h _ ((hsync now).mpr ⟨locals, hall, rfl⟩)
          obtain ⟨locals', hall', rfl⟩ := (hsync now').mp htwice
          exact ⟨locals', hall', hstored⟩
        · intro h once honce
          obtain ⟨locals, hall, rfl⟩ := (hsync now).mp honce
          obtain ⟨locals', hall', hstored⟩ := h locals hall
          exact ⟨_, (hsync now').mpr ⟨locals', hall', rfl⟩, hstored⟩
      rw [hrepeats]
      refine forall_congr' fun locals => forall_congr' fun hall => ?_
      have hreported' := @reported_remoteTransactions services service hservice store
        (synced (remoteTransactions services service store repository) locals now repository)
      have hsame := @remoteTransactions_anonymous services service store repository
        (synced (remoteTransactions services service store repository) locals now repository)
      generalize remoteTransactions services service store repository = first at *
      generalize remoteTransactions services service store
        (synced first locals now repository) = second at *
      exact exists_sameStored_iff hall hreported hreported' hsame

end Twice

/-! ## Merging by the Safe's hash -/

/-- The outcome of a synchronisation that goes by the hash of the Safe. -/
def MergedBySafeHash (remote before after : List Transaction) : Prop :=
  UniqueSafeHashes after ∧
    ∀ tx ∈ remote, ∀ stored ∈ before, tx.hash ≠ none → tx.hash = stored.hash →
      ∃ record ∈ after, record.id = stored.id ∧ FollowsRemote record tx

/-- A synchronisation returns and can be loaded afterwards, and what is loaded is merged by the
hash of the Safe. -/
def MergesBySafeHash (kit : TextKit) (services : Services)
    (service : Address → List RemoteTransaction) (store : Store) (repository : Repository)
    (now now' : Date) : Prop :=
  ∃ once before after, sync kit services service now store repository = .ok once ∧
    all kit repository now = .ok before ∧ all kit once now' = .ok after ∧
    MergedBySafeHash (remoteTransactions services service store repository) before after

/-- Where a stored and a reported transaction have the same hash of the Safe, the reported
one is known by its identifying hash, and the stored one is updated from it or from another
one that says the same. -/
def Recognised (locals remote : List Transaction) : Prop :=
  ∀ tx ∈ remote, ∀ stored ∈ locals, tx.hash ≠ none → tx.hash = stored.hash →
    Known locals tx ∧ FollowsRemote (origin remote stored) tx

/-- What is saved can be loaded, and transactions of one hash of the Safe are recognised. -/
structure Mergeable (kit : TextKit) (locals remote : List Transaction) : Prop where
  replayable : ∀ stored ∈ identified locals, ∀ found ∈ matching remote stored,
    Replayable stored found
  loads : ∀ tx ∈ remote, ¬ Known locals tx → Loads kit tx
  recognised : Recognised locals remote

section SafeHash

variable {repository : Repository} {remote locals txs : List Transaction}
  {tx loaded : Transaction} {now now' : Date}

theorem followsRemote_of_loadedAs_iff {record : Transaction} (h : LoadedAs tx record)
    {remote : Transaction} : FollowsRemote record remote ↔ FollowsRemote tx remote := by
  rw [FollowsRemote, FollowsRemote, h.status, h.transactionHash, h.signatures]

theorem hash_of_loadedAs (h : LoadedAs tx loaded) (hhash : loaded.hash ≠ none) :
    loaded.hash = tx.hash := by
  have hsame := h.hash
  cases htx : tx.hash with
  | none =>
      rw [htx] at hsame
      exact absurd hsame hhash
  | some hash =>
      rw [htx] at hsame
      by_cases hempty : hash = []
      · simp [Column.nextData, hempty] at hsame
        exact absurd hsame hhash
      · rw [hsame, nextData_eq_self_iff]
        simpa using hempty

/-- At another time transactions are loaded with the same hashes. -/
theorem uniqueSafeHashes_at (hall : all kit repository now = .ok locals)
    (hall' : all kit repository now' = .ok txs) (h : UniqueSafeHashes locals) :
    UniqueSafeHashes txs := by
  have hlocal {tx : Transaction} (htx : tx ∈ txs) :
      ∃ stored ∈ locals, stored.id = tx.id ∧ stored.hash = tx.hash := by
    obtain ⟨row, hrow, hload⟩ := (mem_all_iff hall').mp htx
    obtain ⟨stored, hstored, hsame⟩ := load_at hload now
    have hid : stored.id = tx.id := (congrArg Transaction.id hsame :)
    have hhash : stored.hash = tx.hash := (congrArg Transaction.hash hsame :)
    exact ⟨stored, (mem_all_iff hall).mpr ⟨row, hrow, hstored⟩, hid, hhash⟩
  intro first hfirst second hsecond hhash heq
  obtain ⟨stored, hstored, hid, hsame⟩ := hlocal hfirst
  obtain ⟨stored', hstored', hid', hsame'⟩ := hlocal hsecond
  have hboth := h stored hstored stored' hstored' (hsame ▸ hhash)
    (hsame.trans (heq.trans hsame'.symm))
  exact eq_of_mem_all hall' hfirst hsecond (hid.symm.trans (hboth ▸ hid'))

/-- What is saved has different hashes of the Safe, as every stored transaction with a reported
hash is recognised. -/
theorem savedTransactions_hash_inj {tx' : Transaction} (hreported : Reported repository remote)
    (hstored : UniqueSafeHashes locals) (hremote : UniqueSafeHashes remote)
    (hrecognised : Recognised locals remote) (htx : tx ∈ savedTransactions remote locals now)
    (htx' : tx' ∈ savedTransactions remote locals now) (hhash : tx.hash ≠ none)
    (hsame : tx.hash = tx'.hash) : tx = tx' := by
  have hkept (stored : Transaction) : (updated remote now stored).hash = stored.hash :=
    (updated_spec hreported.signatures_nodup stored now).2.1
  rcases (mem_savedTransactions_iff hreported).mp htx with ⟨stored, hmem, rfl⟩ | ⟨hnew, hnot⟩ <;>
    rcases (mem_savedTransactions_iff hreported).mp htx' with ⟨stored', hmem', rfl⟩ |
      ⟨hnew', hnot'⟩
  · rw [hkept, hkept] at hsame
    rw [hkept] at hhash
    rw [hstored stored (mem_identified.mp hmem).1 stored' (mem_identified.mp hmem').1 hhash hsame]
  · rw [hkept] at hsame hhash
    exact absurd (hrecognised tx' hnew' stored (mem_identified.mp hmem).1 (hsame ▸ hhash)
      hsame.symm).1 hnot'
  · rw [hkept] at hsame
    exact absurd (hrecognised tx hnew stored' (mem_identified.mp hmem').1 hhash hsame).1 hnot
  · exact hremote tx hnew tx' hnew' hhash hsame

section Run

variable (hall : all kit repository now = .ok locals) (hreported : Reported repository remote)
  (hall' : all kit (synced remote locals now repository) now' = .ok txs)

include hall hreported hall'

/-- A transaction with a hash of the Safe was stored before or is new. -/
theorem mem_all_synced_of_hash (hmem : loaded ∈ txs) (hhash : loaded.hash ≠ none) :
    ∃ tx ∈ savedTransactions remote locals now, tx.hash = loaded.hash ∧
      transactionFromResultSet kit (DBTransactionRepository.row tx) now' = .ok (some loaded) := by
  rcases (mem_all_synced_iff hall hreported hall').mp hmem with ⟨tx, htx, hload⟩ | ⟨-, hnone⟩
  · exact ⟨tx, htx,
      (hash_of_loadedAs (loadedAs_of_saved hall hreported htx hload) hhash).symm, hload⟩
  · have hsome := identifyingHash_isSome hhash
    rw [hnone] at hsome
    cases hsome

/-- The record of a stored transaction after the synchronisation. -/
theorem exists_record {stored : Transaction} (hmem : stored ∈ locals) (hhash : stored.hash ≠ none) :
    ∃ record ∈ txs, record.id = stored.id ∧ record.hash = stored.hash ∧
      LoadedAs (updated remote now stored) record := by
  have hsaved : updated remote now stored ∈ savedTransactions remote locals now :=
    (mem_savedTransactions_iff hreported).mpr
      (.inl ⟨stored, mem_identified.mpr ⟨hmem, identifyingHash_isSome hhash⟩, rfl⟩)
  obtain ⟨record, hload⟩ :=
    ((exists_all_synced_iff hall hreported).mp ⟨txs, hall'⟩ _ hsaved).at now'
  have hloadedAs := loadedAs_of_saved hall hreported hsaved hload
  obtain ⟨hid, hkept, -, -⟩ := updated_spec hreported.signatures_nodup stored now
  refine ⟨record, (mem_all_synced_iff hall hreported hall').mpr (.inl ⟨_, hsaved, hload⟩),
    hloadedAs.id.trans hid, ?_, hloadedAs⟩
  rw [hloadedAs.hash, hkept, nextData_eq_self_iff.mpr (legible_of_mem hall hmem).hash]

theorem recognised_of_merged (h : MergedBySafeHash remote locals txs) :
    Recognised locals remote := by
  obtain ⟨hunique, hmerged⟩ := h
  intro tx htx stored hmem hhash heq
  obtain ⟨record, hrecord, hid, hkept, hloadedAs⟩ :=
    exists_record hall hreported hall' hmem (heq ▸ hhash)
  constructor
  · by_contra hnot
    -- The reported transaction is stored a second time, under a new identifier.
    have hsaved : tx ∈ savedTransactions remote locals now :=
      (mem_savedTransactions_iff hreported).mpr (.inr ⟨htx, hnot⟩)
    obtain ⟨new, hload⟩ :=
      ((exists_all_synced_iff hall hreported).mp ⟨txs, hall'⟩ tx hsaved).at now'
    have hnew := (mem_all_synced_iff hall hreported hall').mpr (.inl ⟨tx, hsaved, hload⟩)
    have hnewAs := loadedAs_of_saved hall hreported hsaved hload
    have hnewHash : new.hash = stored.hash := by
      rw [hnewAs.hash, heq, nextData_eq_self_iff.mpr (legible_of_mem hall hmem).hash]
    have hsame := hunique new hnew record hrecord (hnewHash ▸ heq ▸ hhash)
      (hnewHash.trans hkept.symm)
    apply hreported.ids_new tx htx
    rw [← hnewAs.id, hsame, hid]
    exact (ids_sublist hall).subset (List.mem_map_of_mem hmem)
  · obtain ⟨record', hmem', hid', hfollows⟩ := hmerged tx htx stored hmem hhash heq
    rw [eq_of_mem_all hall' hmem' hrecord (hid'.trans hid.symm),
      followsRemote_of_loadedAs_iff hloadedAs] at hfollows
    exact (followsRemote_updated_iff hreported.signatures_nodup).mp hfollows

theorem merged_of_recognised (hstored : UniqueSafeHashes locals)
    (hremote : UniqueSafeHashes remote) (h : Recognised locals remote) :
    MergedBySafeHash remote locals txs := by
  constructor
  · intro first hfirst second hsecond hhash heq
    obtain ⟨tx, htx, hold, hload⟩ :=
      mem_all_synced_of_hash hall hreported hall' hfirst hhash
    obtain ⟨tx', htx', hold', hload'⟩ :=
      mem_all_synced_of_hash hall hreported hall' hsecond (heq ▸ hhash)
    have hboth : tx = tx' := savedTransactions_hash_inj hreported hstored hremote h
      htx htx' (hold ▸ hhash) (hold.trans (heq.trans hold'.symm))
    cases hboth
    cases hload.symm.trans hload'
    rfl
  · intro tx htx stored hmem hhash heq
    obtain ⟨record, hrecord, hid, -, hloadedAs⟩ :=
      exists_record hall hreported hall' hmem (heq ▸ hhash)
    refine ⟨record, hrecord, hid, ?_⟩
    rw [followsRemote_of_loadedAs_iff hloadedAs]
    exact (followsRemote_updated_iff hreported.signatures_nodup).mpr
      (h tx htx stored hmem hhash heq).2

/-- With different hashes before and in the report, the outcome goes by the hash of the Safe
exactly if the pairs of one hash are recognised. -/
theorem mergedBySafeHash_iff (hstored : UniqueSafeHashes locals)
    (hremote : UniqueSafeHashes remote) :
    MergedBySafeHash remote locals txs ↔ Recognised locals remote :=
  ⟨recognised_of_merged hall hreported hall',
    merged_of_recognised hall hreported hall' hstored hremote⟩

end Run

/-- What is saved can be loaded exactly if the updates have what their status asserts and the
new transactions can be loaded. -/
theorem saved_loads_iff (hall : all kit repository now = .ok locals)
    (hreported : Reported repository remote) :
    (∀ tx ∈ savedTransactions remote locals now, Loads kit tx) ↔
      (∀ stored ∈ identified locals, ∀ found ∈ matching remote stored, Replayable stored found) ∧
        ∀ tx ∈ remote, ¬ Known locals tx → Loads kit tx := by
  constructor
  · intro h
    refine ⟨fun stored hstored => ?_, fun tx htx hnot =>
      h tx ((mem_savedTransactions_iff hreported).mpr (.inr ⟨htx, hnot⟩))⟩
    exact (loads_updated_iff hall hreported (mem_identified.mp hstored).1).mp
      (h _ ((mem_savedTransactions_iff hreported).mpr (.inl ⟨stored, hstored, rfl⟩)))
  · rintro ⟨hreplayable, hloads⟩ tx htx
    rcases (mem_savedTransactions_iff hreported).mp htx with ⟨stored, hstored, rfl⟩ | ⟨hnew, hnot⟩
    · exact (loads_updated_iff hall hreported (mem_identified.mp hstored).1).mpr
        (hreplayable stored hstored)
    · exact hloads tx hnew hnot

theorem mergesBySafeHash_iff (hservice : WellFormedService service) (store : Store)
    (hstored : ∀ locals, all kit repository now = .ok locals → UniqueSafeHashes locals)
    (hremote : UniqueSafeHashes (remoteTransactions services service store repository)) :
    MergesBySafeHash kit services service store repository now now' ↔
      ∃ locals, all kit repository now = .ok locals ∧
        Mergeable kit locals (remoteTransactions services service store repository) := by
  have hreported := @reported_remoteTransactions services service hservice store repository
  cases hsafe : syncedSafe store with
  | none =>
      have hempty : remoteTransactions services service store repository = [] := by
        rw [remoteTransactions, hsafe]
      have hsync : sync kit services service now store repository = .ok repository := by
        rw [sync, hsafe, Trapping.pure_eq_ok]
      rw [hempty, MergesBySafeHash, hempty, hsync]
      constructor
      · rintro ⟨once, before, after, -, hbefore, -, -⟩
        exact ⟨before, hbefore, by simp [matching], by simp, by simp [Recognised]⟩
      · rintro ⟨locals, hall, -⟩
        obtain ⟨after, hafter⟩ : ∃ txs, all kit repository now' = .ok txs :=
          exists_all_iff.mpr fun row hrow =>
            exists_load_at (exists_all_iff.mp ⟨locals, hall⟩ row hrow) now'
        exact ⟨repository, locals, after, rfl, hall, hafter,
          uniqueSafeHashes_at hall hafter (hstored locals hall), by simp⟩
  | some safe =>
      have hsync {locals : List Transaction} (hall : all kit repository now = .ok locals) :
          sync kit services service now store repository = .ok (synced
            (remoteTransactions services service store repository) locals now repository) := by
        simp only [sync, hsafe, hall, Trapping.ok_bind, Trapping.pure_eq_ok]
      constructor
      · rintro ⟨once, locals, after, honce, hall, hafter, hmerged⟩
        cases (hsync hall).symm.trans honce
        have hloads := (exists_all_synced_iff hall hreported).mp ⟨after, hafter⟩
        obtain ⟨hreplayable, hnew⟩ := (saved_loads_iff hall hreported).mp hloads
        exact ⟨locals, hall, hreplayable, hnew, (mergedBySafeHash_iff hall hreported hafter
          (hstored locals hall) hremote).mp hmerged⟩
      · rintro ⟨locals, hall, hreplayable, hnew, hrecognised⟩
        obtain ⟨after, hafter⟩ := (@exists_all_synced_iff kit _ _ _ now now' hall hreported).mpr
          ((saved_loads_iff hall hreported).mpr ⟨hreplayable, hnew⟩)
        exact ⟨_, locals, after, hsync hall, hall, hafter, (mergedBySafeHash_iff hall hreported
          hafter (hstored locals hall) hremote).mpr hrecognised⟩

end SafeHash

/-! ## What a synchronisation keeps and what it merges -/

/-- Running `sync()` twice with the same response leaves the transactions of the first run
exactly if these can be loaded, have the dates of their status, and are found again: by a hash
that survives storing, and with a first match that says the same. -/
theorem sync_idempotent_iff (kit : TextKit) (services : Services)
    (service : Address → List RemoteTransaction) (hservice : WellFormedService service)
    (store : Store) (repository : Repository) (now now' : Date) :
    Repeats kit services service store repository now now' ↔
      ∀ locals, all kit repository now = .ok locals →
        Repeatable kit locals (remoteTransactions services service store repository) :=
  repeats_iff hservice store

/-- A wallet that sends Ether to itself. -/
def syncedWallet : Wallet where
  id := "wallet"
  state := .readyToUse
  owners := []
  address := some ⟨"0x5aAeb6053F3E94C9b9A09f33669435E7Ef1BeAed"⟩
  feePaymentTokenAddress := none
  confirmationCount := 1
  masterCopyAddress := none

def syncServices : Services :=
  .offline (.ofRecording ⟨[], [], [], []⟩) ⟨Address.zero, [], []⟩

/-- The wallet is selected. -/
def syncStore : Store :=
  { Store.ofWallets (Table.empty.save syncedWallet) Table.empty with
    portfolio := some ⟨["wallet"], some "wallet"⟩ }

/-- The hash of the wallet's transaction on the chain. -/
def executionHash : String :=
  "0x3f1e5e7dbd0fae2a5cb4f4dcb3a2ff1c4b51d53cce9ab1c3ad0a4a2bd1ad8d9b"

/-- The hash that its owners signed. -/
def safeHash : Data :=
  EthereumKit.bytes 32 0x9c4f7a0be21d5c86f3128f9d6be5a3c4170f2d9be86c54a1d3f7b0c9e2a45d68

/-- What the wallet sent, as the service reports it after the execution. -/
def outgoingTransfer : RemoteTransaction where
  transaction := { Transaction.new "" .transfer ⟨Token.Ether.id, "wallet"⟩ 0 with
    status := .success
    sender := syncedWallet.address
    recipient := syncedWallet.address
    amount := some (.ether 1)
    fee := some (.ether 0)
    hash := some safeHash
    transactionHash := some executionHash
    signatures := [⟨[1], ⟨"0x092cc1854399adc38dad4f846e369c40d0a40307"⟩⟩]
    submittedDate := some 0
    processedDate := some 1 }
  signatures_nodup := by decide

/-- What it received, in the same transaction on the chain. -/
def incomingTransfer : RemoteTransaction where
  transaction := { Transaction.new "" .transfer ⟨Token.Ether.id, "wallet"⟩ 1 with
    status := .success
    sender := syncedWallet.address
    recipient := syncedWallet.address
    amount := some (.ether 1)
    fee := some (.ether 0)
    transactionHash := some executionHash
    submittedDate := some 1
    processedDate := some 1 }
  signatures_nodup := by decide

/-- The transaction while it waits for signatures. -/
def waitingTransfer : Transaction :=
  { Transaction.new "stored" .transfer ⟨Token.Ether.id, "wallet"⟩ 0 with
    status := .signing
    sender := syncedWallet.address
    recipient := syncedWallet.address
    amount := some (.ether 1)
    fee := some (.ether 0)
    hash := some safeHash }

/-- The service knows one signature more. -/
def confirmedTransfer : RemoteTransaction where
  transaction := { waitingTransfer with
    signatures := [⟨[1], ⟨"0x092cc1854399adc38dad4f846e369c40d0a40307"⟩⟩] }
  signatures_nodup := by decide

/-- The repository with the waiting transaction. -/
def waitingRepository : Repository := save waitingTransfer Table.empty

theorem all_waitingRepository : all marks waitingRepository 2 = .ok [waitingTransfer] := by
  decide +kernel

/-- These transfers are reported as the service knows them. -/
theorem wellFormed_transfers {response : List RemoteTransaction}
    (h : response ⊆ [outgoingTransfer, incomingTransfer, confirmedTransfer]) :
    WellFormedService fun _ => response := by
  intro _ remote hremote
  have hmem := h hremote
  simp only [List.mem_cons, List.not_mem_nil, or_false] at hmem
  rcases hmem with rfl | rfl | rfl
  all_goals
    refine ⟨by decide +kernel, RemoteTransaction.signatures_nodup _, ?_⟩
    decide +kernel

/-- A transfer that was confirmed and one that was received meanwhile are stored once. -/
theorem sync_idempotent_confirmed : Repeats marks syncServices
    (fun _ => [confirmedTransfer, incomingTransfer]) syncStore waitingRepository 2 3 := by
  have hservice : WellFormedService fun _ => [confirmedTransfer, incomingTransfer] :=
    wellFormed_transfers (by simp)
  refine (sync_idempotent_iff marks syncServices _ hservice syncStore waitingRepository 2 3).mpr ?_
  have hremote : remoteTransactions syncServices (fun _ => [confirmedTransfer, incomingTransfer])
      syncStore waitingRepository =
        [{ incomingTransfer.transaction with id := "AAAAAAAAAAAAAA" },
          { confirmedTransfer.transaction with id := "AAAAAAA" }] := by
    decide +kernel
  intro locals hlocals
  cases all_waitingRepository.symm.trans hlocals
  rw [hremote]
  have hknown : Known [waitingTransfer] { confirmedTransfer.transaction with id := "AAAAAAA" } :=
    ⟨waitingTransfer, mem_identified.mpr ⟨List.mem_singleton.mpr rfl, by decide +kernel⟩,
      by decide +kernel⟩
  have hnew {tx : Transaction} (htx : tx ∈ ([{ incomingTransfer.transaction with id := "AAAAAAAAAAAAAA" },
      { confirmedTransfer.transaction with id := "AAAAAAA" }] : List Transaction))
      (hnot : ¬ Known [waitingTransfer] tx) :
      tx = { incomingTransfer.transaction with id := "AAAAAAAAAAAAAA" } := by
    rcases List.mem_cons.mp htx with hincoming | hconfirmed
    · exact hincoming
    · rw [List.mem_singleton.mp hconfirmed] at hnot
      exact absurd hknown hnot
  constructor
  case covered =>
    intro stored hstored found hfound
    rw [List.mem_singleton.mp (mem_identified.mp hstored).1] at hfound ⊢
    have hmatch : matching [{ incomingTransfer.transaction with id := "AAAAAAAAAAAAAA" },
        { confirmedTransfer.transaction with id := "AAAAAAA" }] waitingTransfer =
          some { confirmedTransfer.transaction with id := "AAAAAAA" } := by
      decide +kernel
    cases hmatch.symm.trans hfound
    exact ⟨by decide, fun _ => ⟨rfl, rfl, rfl, rfl⟩, by decide, by decide, by decide, by decide⟩
  case loads =>
    intro tx htx hnot
    rw [hnew htx hnot]
    exact ⟨{ incomingTransfer.transaction with id := "AAAAAAAAAAAAAA" }, by decide +kernel⟩
  case kept =>
    intro tx htx hnot
    rw [hnew htx hnot]
    exact ⟨_, List.mem_cons_self, rfl, .inl (by decide)⟩
  case agrees =>
    intro tx htx hnot _
    rw [hnew htx hnot]
    refine ⟨⟨rfl, by decide, fun _ => rfl, fun _ => rfl⟩, ?_⟩
    decide +kernel

/-- The second run gives the received transfer the signatures of the sent one. -/
theorem sync_not_idempotent : ¬ Repeats marks syncServices
    (fun _ => [outgoingTransfer, incomingTransfer]) syncStore Table.empty 2 3 := by
  have hservice : WellFormedService fun _ => [outgoingTransfer, incomingTransfer] :=
    wellFormed_transfers (by simp)
  rw [repeats_iff hservice]
  have hremote : remoteTransactions syncServices (fun _ => [outgoingTransfer, incomingTransfer])
      syncStore Table.empty =
        [{ outgoingTransfer.transaction with id := "A" },
          { incomingTransfer.transaction with id := "AA" }] := by
    decide +kernel
  rw [hremote]
  intro hrepeatable
  have hunknown : ¬ Known [] { incomingTransfer.transaction with id := "AA" } := by
    rintro ⟨stored, hstored, -⟩
    cases (mem_identified.mp hstored).1
  have hagrees := ((hrepeatable [] rfl).agrees _ (by simp) hunknown (.inl (by decide))).2
    { outgoingTransfer.transaction with id := "A" } (by decide +kernel)
  exact absurd hagrees (by decide +kernel)

/-- Over a repository and a report without two transactions of one hash of the Safe, `sync()`
merges by that hash exactly if the repository can be loaded before, what is saved can be loaded
after it, and every pair with the same hash is recognised. -/
theorem sync_merges_by_safeHash_iff (kit : TextKit) (services : Services)
    (service : Address → List RemoteTransaction) (hservice : WellFormedService service)
    (store : Store) (repository : Repository) (now now' : Date)
    (hstored : ∀ locals, all kit repository now = .ok locals → UniqueSafeHashes locals)
    (hremote : UniqueSafeHashes (remoteTransactions services service store repository)) :
    MergesBySafeHash kit services service store repository now now' ↔
      ∃ locals, all kit repository now = .ok locals ∧
        Mergeable kit locals (remoteTransactions services service store repository) :=
  mergesBySafeHash_iff hservice store hstored hremote

theorem uniqueSafeHashes_singleton (tx : Transaction) : UniqueSafeHashes [tx] := by
  intro first hfirst second hsecond _ _
  rw [List.mem_singleton.mp hfirst, List.mem_singleton.mp hsecond]

theorem uniqueSafeHashes_waitingRepository :
    ∀ locals, all marks waitingRepository 2 = .ok locals → UniqueSafeHashes locals := by
  intro locals hlocals
  cases all_waitingRepository.symm.trans hlocals
  exact uniqueSafeHashes_singleton waitingTransfer

/-- A confirmation that the service has seen is taken over. -/
theorem sync_merges_confirmation : MergesBySafeHash marks syncServices
    (fun _ => [confirmedTransfer]) syncStore waitingRepository 2 3 := by
  have hservice : WellFormedService fun _ => [confirmedTransfer] :=
    wellFormed_transfers (by simp)
  have hremote : remoteTransactions syncServices (fun _ => [confirmedTransfer]) syncStore
      waitingRepository = [{ confirmedTransfer.transaction with id := "AAAAAAA" }] := by
    decide +kernel
  have hunique : UniqueSafeHashes (remoteTransactions syncServices
      (fun _ => [confirmedTransfer]) syncStore waitingRepository) := by
    rw [hremote]
    exact uniqueSafeHashes_singleton _
  refine (sync_merges_by_safeHash_iff marks syncServices _ hservice syncStore waitingRepository
    2 3 uniqueSafeHashes_waitingRepository hunique).mpr ⟨_, all_waitingRepository, ?_⟩
  rw [hremote]
  have hknown : Known [waitingTransfer] { confirmedTransfer.transaction with id := "AAAAAAA" } :=
    ⟨waitingTransfer, mem_identified.mpr ⟨List.mem_singleton.mpr rfl, by decide +kernel⟩,
      by decide +kernel⟩
  have hmatch : matching [{ confirmedTransfer.transaction with id := "AAAAAAA" }]
      waitingTransfer = some { confirmedTransfer.transaction with id := "AAAAAAA" } := by
    decide +kernel
  constructor
  case replayable =>
    intro stored hstored found hfound
    rw [List.mem_singleton.mp (mem_identified.mp hstored).1] at hfound ⊢
    cases hmatch.symm.trans hfound
    exact ⟨fun _ => ⟨rfl, rfl, rfl, rfl⟩, by decide⟩
  case loads =>
    intro tx htx hnot
    rw [List.mem_singleton.mp htx] at hnot
    exact absurd hknown hnot
  case recognised =>
    intro tx htx stored hstored _ _
    rw [List.mem_singleton.mp htx, List.mem_singleton.mp hstored]
    refine ⟨hknown, ?_⟩
    rw [origin, hmatch]
    exact ⟨rfl, rfl, fun signature => Iff.rfl⟩

/-- A waiting transaction is not recognised when it has been executed meanwhile: the report
is stored as a second transaction of the same hash. -/
theorem sync_not_merges_executed :
    (∀ locals, all marks waitingRepository 2 = .ok locals → UniqueSafeHashes locals) ∧
      UniqueSafeHashes (remoteTransactions syncServices (fun _ => [outgoingTransfer]) syncStore
        waitingRepository) ∧
      ¬ MergesBySafeHash marks syncServices (fun _ => [outgoingTransfer]) syncStore
        waitingRepository 2 3 := by
  have hservice : WellFormedService fun _ => [outgoingTransfer] :=
    wellFormed_transfers (by simp)
  have hremote : remoteTransactions syncServices (fun _ => [outgoingTransfer]) syncStore
      waitingRepository = [{ outgoingTransfer.transaction with id := "AAAAAAA" }] := by
    decide +kernel
  have hunique : UniqueSafeHashes (remoteTransactions syncServices
      (fun _ => [outgoingTransfer]) syncStore waitingRepository) := by
    rw [hremote]
    exact uniqueSafeHashes_singleton _
  refine ⟨uniqueSafeHashes_waitingRepository, hunique, ?_⟩
  rw [mergesBySafeHash_iff hservice syncStore uniqueSafeHashes_waitingRepository hunique, hremote]
  rintro ⟨locals, hlocals, hmergeable⟩
  cases all_waitingRepository.symm.trans hlocals
  obtain ⟨stored, hmem, hsame⟩ := (hmergeable.recognised _ (List.mem_singleton.mpr rfl)
    waitingTransfer (List.mem_singleton.mpr rfl) (by decide +kernel) (by decide +kernel)).1
  rw [List.mem_singleton.mp (mem_identified.mp hmem).1] at hsame
  exact absurd hsame (by decide +kernel)

end TransactionSyncDomainService

end SafeWallet
