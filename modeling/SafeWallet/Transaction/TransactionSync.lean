/-
# Synchronising transactions with the transaction service

The service reports the transactions of a Safe. A stored transaction takes over status,
dates, blockchain hash and signatures of the first reported one with its identifying hash,
and what is reported under a hash that no stored transaction has is added. The identifying
hash is the blockchain hash where it is known and the Safe's own hash elsewhere. It is not
unique: one Ethereum transaction may carry several transactions of a Safe. And it is not
stable: a record that does not know the blockchain hash has another one than a record of
the same transaction that does.
-/

import SafeWallet.DomainRegistry
import Mathlib.Data.List.Sort

namespace SafeWallet

/-- `identifyingHash`. -/
def Transaction.identifyingHash (tx : Transaction) : Option Data :=
  match tx.transactionHash with
  | some text => some (Data.ofHex text.toList)
  | none => tx.hash.map fun hash => Data.ofHex hash.toHexString

/-- A transaction as the service reports it. Confirmations are added one by one, which
keeps the signatures different. -/
structure RemoteTransaction where
  transaction : Transaction
  signatures_nodup : transaction.signatures.Nodup

namespace TransactionSyncDomainService

variable (services : Services)

/-- Transactions made from a response have new identifiers. -/
def withNewIDs : List TransactionID → List RemoteTransaction → List Transaction
  | _, [] => []
  | known, remote :: rest =>
    let id := services.nextID known
    { remote.transaction with id := id } :: withNewIDs (id :: known) rest

/-- The text transactions are sorted by. -/
def sortKey (tx : Transaction) : List Char := (tx.identifyingHash.getD []).toHexString

/-- The transactions that have an identifying hash, sorted by it. -/
def identified (txs : List Transaction) : List Transaction :=
  (txs.filter fun tx => tx.identifyingHash.isSome).insertionSort
    fun tx tx' => ¬ sortKey tx' < sortKey tx

/-- The blockchain hash is taken over if it is reported. -/
def withHash (stored remote : Transaction) (now : Date) : Transaction :=
  if remote.transactionHash.isSome ∧ stored.transactionHash ≠ remote.transactionHash then
    { stored with transactionHash := remote.transactionHash, updatedDate := some now }
  else stored

/-- Another status is taken over, with the dates that are reported. -/
def withStatus (stored remote : Transaction) : Transaction :=
  if stored.status ≠ remote.status then
    { stored with
      status := remote.status
      createdDate := remote.createdDate.or stored.createdDate
      updatedDate := remote.updatedDate.or stored.updatedDate
      rejectedDate := remote.rejectedDate.or stored.rejectedDate
      processedDate := remote.processedDate.or stored.processedDate
      submittedDate := remote.submittedDate.or stored.submittedDate }
  else stored

/-- The signatures are removed one by one, and the reported ones added. -/
def withSignatures (stored remote : Transaction) (now : Date) : Transaction :=
  let tx := stored.signatures.foldl (fun tx signature => tx.remove signature now) stored
  remote.signatures.foldl (fun tx signature => tx.add signature now) tx

/-- The update of a stored transaction by a reported one. -/
def merged (stored remote : Transaction) (now : Date) : Transaction :=
  withSignatures (withStatus (withHash stored remote now) remote) remote now

/-- The first reported transaction with the identifying hash of a stored one. -/
def matching (remote : List Transaction) (stored : Transaction) : Option Transaction :=
  remote.find? fun tx => stored.identifyingHash = tx.identifyingHash

/-- What becomes of a stored transaction. -/
def updated (remote : List Transaction) (now : Date) (stored : Transaction) : Transaction :=
  match matching remote stored with
  | some tx => merged stored tx now
  | none => stored

/-- The reported transactions with other identifying hashes than the stored ones. -/
def newTransactions (stored remote : List Transaction) : List Transaction :=
  remote.filter fun tx => tx.identifyingHash ∉ stored.map Transaction.identifyingHash

/-- The Safe that is synchronised. -/
def syncedSafe (store : Store) : Option Address := do
  let wallet ← store.selectedWallet
  if wallet.state.isReadyToUse then wallet.address else none

/-! ## Sorted lists -/

theorem mem_identified {txs : List Transaction} {tx : Transaction} :
    tx ∈ identified txs ↔ tx ∈ txs ∧ tx.identifyingHash.isSome := by
  rw [identified, List.mem_insertionSort, List.mem_filter]

theorem identified_map_nodup {β : Type} {txs : List Transaction} {f : Transaction → β}
    (h : (txs.map f).Nodup) : ((identified txs).map f).Nodup := by
  have hperm := (List.perm_insertionSort (fun tx tx' : Transaction => ¬ sortKey tx' < sortKey tx)
    (txs.filter fun tx => tx.identifyingHash.isSome)).map f
  exact hperm.nodup_iff.mpr (h.sublist (List.filter_sublist.map f))

/-- Sorting does not look at the identifiers. -/
theorem identified_map {f : Transaction → Transaction}
    (h : ∀ tx, (f tx).identifyingHash = tx.identifyingHash) (txs : List Transaction) :
    identified (txs.map f) = (identified txs).map f := by
  have hkey (tx : Transaction) : sortKey (f tx) = sortKey tx := by rw [sortKey, sortKey, h]
  have hfilter : (txs.map f).filter (fun tx => tx.identifyingHash.isSome) =
      (txs.filter fun tx => tx.identifyingHash.isSome).map f := by
    rw [List.filter_map]
    simp only [Function.comp_def, h]
  rw [identified, identified, hfilter]
  refine (List.map_insertionSort (fun tx tx' => ¬ sortKey tx' < sortKey tx)
    (fun tx tx' => ¬ sortKey tx' < sortKey tx) f _ ?_).symm
  intro a _ b _
  rw [hkey, hkey]

/-- What is found in a list of changed elements, if the search does not see the change. -/
theorem find?_map_of_invariant {α : Type} {p : α → Bool} {f : α → α} (h : ∀ a, p (f a) = p a)
    (elements : List α) : (elements.map f).find? p = (elements.find? p).map f := by
  rw [List.find?_map]
  simp only [Function.comp_def, h]

/-! ## One update -/

variable {services} {stored remote : Transaction} {now : Date}

theorem foldl_remove (signatures : List Signature) (tx : Transaction) (now : Date) : ∃ date,
    signatures.foldl (fun tx signature => tx.remove signature now) tx =
      { tx with signatures := signatures.foldl List.erase tx.signatures, updatedDate := date } := by
  induction signatures generalizing tx with
  | nil => exact ⟨tx.updatedDate, rfl⟩
  | cons signature rest ih =>
      obtain ⟨date, hrest⟩ := ih (tx.remove signature now)
      refine ⟨date, ?_⟩
      rw [List.foldl_cons, hrest]
      unfold Transaction.remove
      split
      · rfl
      · rename_i hnot
        rw [List.foldl_cons, List.erase_of_not_mem hnot]

/-- Signatures after others, none of them twice. -/
def added (signatures known : List Signature) : List Signature :=
  signatures.foldl (fun known signature =>
    if signature ∈ known then known else known ++ [signature]) known

/-- Adding signatures one by one leaves out repeated ones. -/
theorem foldl_add (signatures : List Signature) (tx : Transaction) (now : Date) : ∃ date,
    signatures.foldl (fun tx signature => tx.add signature now) tx =
      { tx with signatures := added signatures tx.signatures, updatedDate := date } := by
  induction signatures generalizing tx with
  | nil => exact ⟨tx.updatedDate, rfl⟩
  | cons signature rest ih =>
      obtain ⟨date, hrest⟩ := ih (tx.add signature now)
      refine ⟨date, ?_⟩
      rw [List.foldl_cons, hrest, added, added, List.foldl_cons]
      by_cases hmem : signature ∈ tx.signatures
      · rw [Transaction.add, if_pos hmem, if_pos hmem]
      · rw [Transaction.add, if_neg hmem, if_neg hmem]

theorem added_nodup (signatures : List Signature) {known : List Signature} (h : known.Nodup) :
    (added signatures known).Nodup := by
  induction signatures generalizing known with
  | nil => exact h
  | cons signature rest ih =>
      rw [added, List.foldl_cons]
      split
      · exact ih h
      · rename_i hnot
        refine ih (List.nodup_append.mpr ⟨h, List.nodup_singleton _, fun s hs s' hs' heq => ?_⟩)
        exact hnot (List.mem_singleton.mp hs' ▸ heq ▸ hs)

theorem added_of_nodup {signatures known : List Signature} (h : (known ++ signatures).Nodup) :
    added signatures known = known ++ signatures := by
  induction signatures generalizing known with
  | nil => exact (List.append_nil known).symm
  | cons signature rest ih =>
      have hnot : signature ∉ known := fun hmem =>
        (List.nodup_append.mp h).2.2 signature hmem signature List.mem_cons_self rfl
      rw [added, List.foldl_cons, if_neg hnot, ← added, ih (by simpa using h)]
      simp

theorem added_eq_self_iff {signatures : List Signature} :
    added signatures [] = signatures ↔ signatures.Nodup := by
  constructor
  · intro h
    rw [← h]
    exact added_nodup signatures List.nodup_nil
  · intro h
    rw [added_of_nodup (by simpa using h), List.nil_append]

theorem mem_added {signatures known : List Signature} {signature : Signature}
    (h : signature ∈ added signatures known) : signature ∈ known ∨ signature ∈ signatures := by
  induction signatures generalizing known with
  | nil => exact .inl h
  | cons first rest ih =>
      rw [added, List.foldl_cons] at h
      rcases ih h with hknown | hrest
      · split at hknown
        · exact .inl hknown
        · rcases List.mem_append.mp hknown with hold | hfirst
          · exact .inl hold
          · exact .inr (List.mem_singleton.mp hfirst ▸ List.mem_cons_self)
      · exact .inr (List.mem_cons_of_mem _ hrest)

/-- A date of the reported transaction is taken over with its status only. -/
def takenOver (stored remote : Transaction) (date : Transaction → Option Date) : Option Date :=
  if stored.status = remote.status then date stored else (date remote).or (date stored)

theorem withHash_spec (stored remote : Transaction) (now : Date) : ∃ date,
    withHash stored remote now = { stored with
      transactionHash := remote.transactionHash.or stored.transactionHash
      updatedDate := date } := by
  unfold withHash
  split
  · rename_i hnew
    obtain ⟨text, htext⟩ := Option.isSome_iff_exists.mp hnew.1
    exact ⟨some now, by rw [htext]; rfl⟩
  · rename_i hold
    refine ⟨stored.updatedDate, ?_⟩
    have hsame : remote.transactionHash.or stored.transactionHash = stored.transactionHash := by
      cases hremote : remote.transactionHash with
      | none => rfl
      | some text => simpa [hremote, eq_comm] using hold
    rw [hsame]

theorem withStatus_spec (stored remote : Transaction) : ∃ date,
    withStatus stored remote = { stored with
      status := remote.status
      createdDate := takenOver stored remote Transaction.createdDate
      rejectedDate := takenOver stored remote Transaction.rejectedDate
      processedDate := takenOver stored remote Transaction.processedDate
      submittedDate := takenOver stored remote Transaction.submittedDate
      updatedDate := date } := by
  by_cases hstatus : stored.status = remote.status
  · refine ⟨stored.updatedDate, ?_⟩
    simp only [withStatus, takenOver, hstatus, ne_eq, not_true_eq_false, if_false, if_true]
    rw [← hstatus]
  · refine ⟨remote.updatedDate.or stored.updatedDate, ?_⟩
    simp only [withStatus, takenOver, hstatus, ne_eq, not_false_eq_true, if_true, if_false]

theorem withSignatures_spec (stored : Transaction) (now : Date) (h : remote.signatures.Nodup) :
    ∃ date, withSignatures stored remote now =
      { stored with signatures := remote.signatures, updatedDate := date } := by
  obtain ⟨removeDate, hremove⟩ := foldl_remove stored.signatures stored now
  have hempty : stored.signatures.foldl List.erase stored.signatures = [] := by
    induction stored.signatures with
    | nil => rfl
    | cons signature rest ih => rw [List.foldl_cons, List.erase_cons_head, ih]
  rw [hempty] at hremove
  obtain ⟨addDate, hadd⟩ := foldl_add remote.signatures
    { stored with signatures := [], updatedDate := removeDate } now
  refine ⟨addDate, ?_⟩
  rw [withSignatures, hremove, hadd, added_eq_self_iff.mpr h]

/-- An update field by field. -/
theorem merged_spec (stored : Transaction) (now : Date) (h : remote.signatures.Nodup) : ∃ date,
    merged stored remote now = { stored with
      transactionHash := remote.transactionHash.or stored.transactionHash
      status := remote.status
      createdDate := takenOver stored remote Transaction.createdDate
      rejectedDate := takenOver stored remote Transaction.rejectedDate
      processedDate := takenOver stored remote Transaction.processedDate
      submittedDate := takenOver stored remote Transaction.submittedDate
      signatures := remote.signatures
      updatedDate := date } := by
  obtain ⟨hashDate, hhash⟩ := withHash_spec stored remote now
  obtain ⟨statusDate, hstatus⟩ := withStatus_spec (withHash stored remote now) remote
  obtain ⟨date, hsignatures⟩ :=
    withSignatures_spec (withStatus (withHash stored remote now) remote) now h
  refine ⟨date, ?_⟩
  rw [merged, hsignatures, hstatus, hhash]
  rfl

/-- Updates keep the identifying hash of what they update. -/
theorem identifyingHash_merged (h : remote.signatures.Nodup)
    (hmatch : stored.identifyingHash = remote.identifyingHash) :
    (merged stored remote now).identifyingHash = stored.identifyingHash := by
  obtain ⟨date, hmerged⟩ := merged_spec stored now h
  rw [hmerged]
  cases hremote : remote.transactionHash with
  | none => rfl
  | some text =>
      rw [hmatch]
      simp [Transaction.identifyingHash, hremote]

/-- A transaction without the moment of its last update. -/
def unstamped (tx : Transaction) : Transaction := { tx with updatedDate := none }

/-- A reported transaction has nothing to change in a stored one. -/
def Agrees (remote stored : Transaction) : Prop :=
  (remote.transactionHash = none ∨ remote.transactionHash = stored.transactionHash) ∧
    remote.status = stored.status ∧ remote.signatures = stored.signatures

instance (remote stored : Transaction) : Decidable (Agrees remote stored) :=
  inferInstanceAs (Decidable (_ ∧ _ ∧ _))

theorem unstamped_merged_iff (h : remote.signatures.Nodup) :
    unstamped (merged stored remote now) = unstamped stored ↔ Agrees remote stored := by
  obtain ⟨date, hmerged⟩ := merged_spec stored now h
  rw [hmerged]
  constructor
  · intro heq
    have hhash : remote.transactionHash.or stored.transactionHash = stored.transactionHash :=
      congrArg Transaction.transactionHash heq
    have hstatus := congrArg Transaction.status heq
    have hsignatures := congrArg Transaction.signatures heq
    refine ⟨?_, hstatus, hsignatures⟩
    cases hremote : remote.transactionHash with
    | none => exact .inl rfl
    | some text =>
        rw [hremote] at hhash
        exact .inr hhash
  · rintro ⟨hhash, hstatus, hsignatures⟩
    have hor : remote.transactionHash.or stored.transactionHash = stored.transactionHash := by
      rcases hhash with hnone | hsame
      · rw [hnone, Option.none_or]
      · rw [hsame, Option.or_self]
    simp only [unstamped, takenOver, hstatus, hsignatures, hor, if_true]

/-- After an update the reported transaction has nothing to change any more. -/
theorem agrees_merged (h : remote.signatures.Nodup) : Agrees remote (merged stored remote now) := by
  obtain ⟨date, hmerged⟩ := merged_spec stored now h
  rw [hmerged]
  refine ⟨?_, rfl, rfl⟩
  cases hremote : remote.transactionHash with
  | none => exact .inl rfl
  | some text => exact .inr rfl

/-! ## Reported transactions -/

/-- A transaction without its identifier. -/
def anonymous (tx : Transaction) : Transaction := { tx with id := "" }

theorem withNewIDs_spec (services : Services) (known : List TransactionID)
    (response : List RemoteTransaction) :
    (∀ tx ∈ withNewIDs services known response, tx.signatures.Nodup) ∧
      ((withNewIDs services known response).map Transaction.id).Nodup ∧
      (∀ tx ∈ withNewIDs services known response, tx.id ∉ known) ∧
      (withNewIDs services known response).map anonymous =
        response.map fun remote => anonymous remote.transaction := by
  induction response generalizing known with
  | nil => simp [withNewIDs]
  | cons remote rest ih =>
      obtain ⟨hsignatures, hnodup, hnew, hsame⟩ := ih (services.nextID known :: known)
      simp only [withNewIDs, List.forall_mem_cons, List.map_cons, List.nodup_cons]
      refine ⟨⟨remote.signatures_nodup, hsignatures⟩, ⟨?_, hnodup⟩,
        ⟨services.nextID_not_mem known, fun tx htx => ?_⟩, ?_⟩
      · intro hmem
        obtain ⟨tx, htx, hid⟩ := List.mem_map.mp hmem
        exact hnew tx htx (hid ▸ List.mem_cons_self)
      · exact fun hmem => hnew tx htx (List.mem_cons_of_mem _ hmem)
      · rw [hsame]
        rfl

section Updates

variable {first second txs : List Transaction} {tx : Transaction} {now' : Date}

theorem matching_spec (h : matching txs stored = some tx) :
    tx ∈ txs ∧ stored.identifyingHash = tx.identifyingHash :=
  ⟨List.mem_of_find?_eq_some h, by simpa using List.find?_some h⟩

/-- An update keeps everything that identifies a transaction. -/
theorem updated_spec (h : ∀ tx ∈ txs, tx.signatures.Nodup) (stored : Transaction) (now : Date) :
    (updated txs now stored).id = stored.id ∧ (updated txs now stored).hash = stored.hash ∧
      (updated txs now stored).data = stored.data ∧
      (updated txs now stored).identifyingHash = stored.identifyingHash := by
  unfold updated
  split
  · rename_i tx hmatch
    obtain ⟨hmem, hsame⟩ := matching_spec hmatch
    obtain ⟨date, hmerged⟩ := merged_spec stored now (h tx hmem)
    refine ⟨?_, ?_, ?_, identifyingHash_merged (h tx hmem) hsame⟩ <;> rw [hmerged]
  · exact ⟨rfl, rfl, rfl, rfl⟩

/-- A transaction with the identifying hash of another one is among these. -/
def Known (locals : List Transaction) (tx : Transaction) : Prop :=
  ∃ stored ∈ identified locals, stored.identifyingHash = tx.identifyingHash

theorem mem_newTransactions_iff {locals : List Transaction} :
    tx ∈ newTransactions (identified locals) txs ↔ tx ∈ txs ∧ ¬ Known locals tx := by
  rw [newTransactions, List.mem_filter]
  simp [Known]

/-- Two reports of the same transactions find the same updates. -/
theorem matching_anonymous (hsame : first.map anonymous = second.map anonymous)
    (stored : Transaction) :
    (matching first stored).map anonymous = (matching second stored).map anonymous := by
  have hmap (txs : List Transaction) :
      (matching txs stored).map anonymous = (txs.map anonymous).find? fun tx =>
        stored.identifyingHash = tx.identifyingHash :=
    (find?_map_of_invariant (f := anonymous) (fun _ => rfl) txs).symm
  rw [hmap, hmap, hsame]

/-- Both reports have the same identifying hashes. -/
theorem exists_copy (hsame : first.map anonymous = second.map anonymous) {tx : Transaction}
    (h : tx ∈ first) : ∃ copy ∈ second, copy.identifyingHash = tx.identifyingHash := by
  have hmem : anonymous tx ∈ second.map anonymous := by
    rw [← hsame]
    exact List.mem_map_of_mem h
  obtain ⟨copy, hcopy, heq⟩ := List.mem_map.mp hmem
  have hidentifying := congrArg Transaction.identifyingHash heq
  exact ⟨copy, hcopy, hidentifying⟩

theorem merged_anonymous (stored remote : Transaction) (now : Date) :
    merged stored (anonymous remote) now = merged stored remote now := rfl

theorem updated_congr (hsame : first.map anonymous = second.map anonymous) (stored : Transaction) :
    updated first now stored = updated second now stored := by
  have hmatch := matching_anonymous hsame stored
  unfold updated
  cases hfirst : matching first stored with
  | none =>
      rw [hfirst] at hmatch
      rw [Option.map_eq_none_iff.mp hmatch.symm]
  | some tx =>
      rw [hfirst] at hmatch
      obtain ⟨tx', hsecond, heq⟩ := Option.map_eq_some_iff.mp hmatch.symm
      rw [hsecond]
      show merged stored tx now = merged stored tx' now
      rw [← merged_anonymous stored tx, ← merged_anonymous stored tx', heq]

/-- Up to its moment, an update is a fixed point exactly if the match agrees. -/
theorem unstamped_updated_iff (hsig : ∀ tx ∈ first, tx.signatures.Nodup) (stored : Transaction) :
    unstamped (updated first now stored) = unstamped stored ↔
      ∀ tx, matching first stored = some tx → Agrees tx stored := by
  unfold updated
  cases hmatch : matching first stored with
  | none => simp
  | some tx =>
      have hmem := (matching_spec hmatch).1
      simp [unstamped_merged_iff (hsig tx hmem)]

/-- An updated transaction is not changed by another update. -/
theorem unstamped_updated_updated (hsig : ∀ tx ∈ first, tx.signatures.Nodup)
    (stored : Transaction) :
    unstamped (updated first now' (updated first now stored)) =
      unstamped (updated first now stored) := by
  rw [unstamped_updated_iff hsig]
  have hidentifying := (updated_spec hsig stored now).2.2.2
  intro tx htx
  have hmatch : matching first stored = some tx := by
    rw [← htx, matching, matching, hidentifying]
  rw [updated, hmatch]
  exact agrees_merged (hsig tx (matching_spec hmatch).1)

end Updates

/-! ## Merging by the Safe's hash -/

/-- No two transactions of a list have the same hash of the Safe. -/
def UniqueSafeHashes (txs : List Transaction) : Prop :=
  ∀ tx ∈ txs, ∀ tx' ∈ txs, tx.hash ≠ none → tx.hash = tx'.hash → tx = tx'

/-- A transaction has status, blockchain hash and set of signatures of another one. -/
def FollowsRemote (stored remote : Transaction) : Prop :=
  stored.status = remote.status ∧ stored.transactionHash = remote.transactionHash ∧
    ∀ signature, signature ∈ stored.signatures ↔ signature ∈ remote.signatures

/-- What a stored transaction is updated from: the first reported one with its identifying
hash, and what is stored where nothing is reported. -/
def origin (remote : List Transaction) (stored : Transaction) : Transaction :=
  let tx := (matching remote stored).getD stored
  { tx with transactionHash := tx.transactionHash.or stored.transactionHash }

theorem identifyingHash_isSome {tx : Transaction} (h : tx.hash ≠ none) :
    tx.identifyingHash.isSome := by
  obtain ⟨hash, hhash⟩ := Option.ne_none_iff_exists'.mp h
  unfold Transaction.identifyingHash
  split
  · rfl
  · simp [hhash]

theorem followsRemote_updated_iff {txs : List Transaction}
    (h : ∀ tx ∈ txs, tx.signatures.Nodup) {stored tx : Transaction} :
    FollowsRemote (updated txs now stored) tx ↔ FollowsRemote (origin txs stored) tx := by
  unfold updated origin
  cases hmatch : matching txs stored with
  | none => simp [FollowsRemote]
  | some first =>
      obtain ⟨date, hmerged⟩ := merged_spec stored now (h first (matching_spec hmatch).1)
      simp only [hmerged, FollowsRemote, Option.getD_some]

end TransactionSyncDomainService

end SafeWallet
