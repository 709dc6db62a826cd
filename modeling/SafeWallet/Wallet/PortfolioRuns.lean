/-
# Runs over the portfolio

Every completed call keeps the portfolio and the wallets consistent. Since a consistent
portfolio is read back as it was saved and a new wallet is not listed, no assertion fails in
the next call.
-/

import SafeWallet.Wallet.Portfolio

namespace SafeWallet

/-! ## Removed wallets -/

namespace Portfolio

variable {portfolio : Portfolio} {walletID : WalletID}

theorem wallets_removeWallet :
    (portfolio.removeWallet walletID).wallets = portfolio.wallets.erase walletID := by
  unfold removeWallet
  split
  · rfl
  · rename_i hnot
    exact (List.erase_of_not_mem hnot).symm

/-- The selection moves on when the selected wallet is removed. -/
theorem selectedWallet_removeWallet
    (hnone : portfolio.selectedWallet = none ↔ portfolio.wallets = [])
    (hlisted : ∀ id, portfolio.selectedWallet = some id → id ∈ portfolio.wallets) :
    ((portfolio.removeWallet walletID).selectedWallet = none ↔
        (portfolio.removeWallet walletID).wallets = []) ∧
      ∀ id, (portfolio.removeWallet walletID).selectedWallet = some id →
        id ∈ (portfolio.removeWallet walletID).wallets := by
  unfold removeWallet
  split
  · rename_i hmem
    obtain ⟨selected, hselected⟩ : ∃ selected, portfolio.selectedWallet = some selected := by
      rw [← Option.ne_none_iff_exists']
      exact fun h => List.ne_nil_of_mem hmem (hnone.mp h)
    simp only [hselected, Option.bind_some]
    cases hrest : portfolio.wallets.erase walletID with
    | nil => simp
    | cons first rest =>
        by_cases hstays : selected ∈ first :: rest
        · rw [if_neg (List.cons_ne_nil first rest), if_pos hstays]
          simpa using List.mem_cons.mp hstays
        · simp [hstays]
  · exact ⟨hnone, hlisted⟩

end Portfolio

namespace Completed

variable {services : Services} {store store' : Store} {walletID : WalletID}

/-- A wallet is gone from all repositories. -/
structure Removed (walletID : WalletID) (store store' : Store) : Prop where
  rows : ∀ id, store'.hasWallet id ↔ store.hasWallet id ∧ id ≠ walletID
  portfolio : store'.portfolio = store.portfolio.map fun found => found.removeWallet walletID
  accounts : ∀ account, account ∈ store'.accounts.rows ↔
    account ∈ store.accounts.rows ∧ account.id.walletID ≠ walletID
  transactions : ∀ tx, tx ∈ store'.transactions.rows ↔
    tx ∈ store.transactions.rows ∧ tx.accountID.walletID ≠ walletID

theorem Removed.readable (h : Removed walletID store store') (hstore : store.Readable) :
    store'.Readable := fun id hid => hstore id ((h.rows id).mp hid).1

theorem Removed.consistent (h : Removed walletID store store') (hstore : store.Consistent) :
    store'.Consistent := by
  have hlisted : store'.listedWallets = store.listedWallets.erase walletID := by
    rw [Store.listedWallets, Store.listedWallets, h.portfolio]
    cases store.portfolio with
    | none => rfl
    | some found => exact Portfolio.wallets_removeWallet
  have hmem : ∀ id, id ∈ store'.listedWallets ↔ store'.hasWallet id := by
    intro id
    rw [hlisted, hstore.listed_nodup.mem_erase_iff, hstore.listed_iff, h.rows, and_comm]
  have hselected : (store'.selectedWalletID = none ↔ store'.listedWallets = []) ∧
      ∀ id, store'.selectedWalletID = some id → id ∈ store'.listedWallets := by
    have hnone := hstore.selected_none_iff.trans (Store.listed_eq_nil_iff hstore.listed_iff).symm
    have hin := hstore.selected_listed
    simp only [Store.selectedWalletID, Store.listedWallets, h.portfolio] at hnone hin ⊢
    cases hrow : store.portfolio with
    | none => simp
    | some found =>
        simp only [hrow, Option.bind_some, Option.map_some, Option.getD_some] at hnone hin ⊢
        exact Portfolio.selectedWallet_removeWallet hnone hin
  constructor
  · rw [hlisted]
    exact hstore.listed_nodup.erase _
  · exact hmem
  · exact hselected.1.trans (Store.listed_eq_nil_iff hmem)
  · exact hselected.2
  · intro id hid
    obtain ⟨hold, hne⟩ := (h.rows id).mp hid
    obtain ⟨account, haccount, hkey⟩ := hstore.ether id hold
    have hother : account.id.walletID ≠ walletID := by
      rw [hkey]
      exact hne
    exact ⟨account, (h.accounts account).mpr ⟨haccount, hother⟩, hkey⟩
  · intro account haccount
    obtain ⟨hold, hne⟩ := (h.accounts account).mp haccount
    exact (h.rows _).mpr ⟨hstore.accounts_owned account hold, hne⟩
  · intro tx htx
    obtain ⟨hold, hne⟩ := (h.transactions tx).mp htx
    exact (h.rows _).mpr ⟨hstore.transactions_owned tx hold, hne⟩

theorem removed_withoutWallet : Removed walletID store (store.withoutWallet walletID) := by
  have haccounts : ∀ account, account ∈ (store.withoutWalletID walletID).accounts.rows ↔
      account ∈ store.accounts.rows ∧ account.id.walletID ≠ walletID := by
    intro account
    simp only [Store.withoutWalletID, Store.accountsOf, Table.mem_rows_removeAll_filter,
      decide_eq_false_iff_not, ne_eq]
  have htransactions : ∀ tx, tx ∈ (store.withoutWalletID walletID).transactions.rows ↔
      tx ∈ store.transactions.rows ∧ tx.accountID.walletID ≠ walletID := by
    intro tx
    simp only [Store.withoutWalletID, Transactions.findWallet, Table.mem_rows_removeAll_filter,
      decide_eq_false_iff_not, ne_eq]
  cases hfind : store.wallets.find walletID with
  | none =>
      have heq : store.withoutWallet walletID = store.withoutWalletID walletID := by
        simp only [Store.withoutWallet, hfind]
      rw [heq]
      refine ⟨fun id => ⟨fun hid => ⟨hid, ?_⟩, fun hid => hid.1⟩, rfl, haccounts, htransactions⟩
      rintro rfl
      obtain ⟨row, hrow, hkey⟩ := List.mem_map.mp hid
      exact Table.find_eq_none_iff.mp hfind row hrow hkey
  | some wallet =>
      have heq : store.withoutWallet walletID =
          (store.withoutWalletData wallet).withoutWalletID walletID := by
        simp only [Store.withoutWallet, hfind]
      have hkey : wallet.id = walletID := (Table.mem_of_find hfind).2
      rw [heq]
      refine ⟨fun id => ?_, rfl, haccounts, htransactions⟩
      simp only [Store.hasWallet, Store.withoutWalletID, Store.withoutWalletData, List.mem_map,
        Table.mem_rows_remove, hkey]
      constructor
      · rintro ⟨row, ⟨hrow, hne⟩, rfl⟩
        exact ⟨⟨row, hrow, rfl⟩, hne⟩
      · rintro ⟨⟨row, hrow, rfl⟩, hne⟩
        exact ⟨row, ⟨hrow, hne⟩, rfl⟩

theorem removeFromPortfolio_eq (h : portfolio store = .ok store.portfolio) :
    removeFromPortfolio walletID store = .ok (store.removeFromPortfolio walletID) := by
  rw [removeFromPortfolio, h, Trapping.ok_bind]
  cases hrow : store.portfolio with
  | none =>
      have hsame : store.removeFromPortfolio walletID = store := by
        rw [Store.removeFromPortfolio, hrow, Option.map_none, ← hrow]
      rw [hsame]
      rfl
  | some found => simp [Store.removeFromPortfolio, hrow]

/-- Removing a wallet with the portfolio as it was saved. -/
theorem removeWallet_eq (h : portfolio store = .ok store.portfolio) :
    removeWallet walletID store = .ok (store.withoutWallet walletID) := by
  unfold removeWallet
  cases hfind : store.wallets.find walletID with
  | none =>
      simp only [removeFromPortfolio_eq h, Trapping.ok_bind, Store.withoutWallet, hfind]
      rfl
  | some wallet =>
      have hload : portfolio (store.withoutWalletData wallet) = .ok store.portfolio := by
        rw [← h]
        exact portfolio_congr rfl
      simp only [removeFromPortfolio_eq hload, Trapping.ok_bind, Store.withoutWallet, hfind]
      rfl

/-! ## One call -/

/-- Consistent, with identifiers that can be read back. -/
structure Intact (store : Store) : Prop where
  consistent : store.Consistent
  readable : store.Readable

theorem Intact.portfolio_eq (h : Intact store) : portfolio store = .ok store.portfolio :=
  Completed.portfolio_eq h.consistent h.readable

theorem Removed.intact (h : Removed walletID store store') (hstore : Intact store) :
    Intact store' := ⟨h.consistent hstore.consistent, h.readable hstore.readable⟩

theorem Added.intact (h : Added (nextID services store) store store') (hstore : Intact store)
    (hplain : WalletIDList.Plain (nextID services store)) : Intact store' :=
  ⟨h.consistent hstore.consistent not_hasWallet_nextID, h.readable hstore.readable hplain⟩

theorem removeWallet_intact (h : Intact store) (walletID : WalletID) :
    ∃ store', removeWallet walletID store = .ok store' ∧ Intact store' :=
  ⟨_, removeWallet_eq h.portfolio_eq, removed_withoutWallet.intact h⟩

/-- A consistent portfolio has no stale wallets. -/
theorem cleanUpPortfolio_eq (h : Intact store) : cleanUpPortfolio store = .ok store := by
  rw [cleanUpPortfolio, h.portfolio_eq, Trapping.ok_bind]
  cases hrow : store.portfolio with
  | none => rfl
  | some found =>
      have hstale : (found.wallets.filter fun id => store.wallets.find id = none) = [] := by
        rw [List.filter_eq_nil_iff]
        intro id hid hnone
        have hlisted : id ∈ store.listedWallets := by simpa [Store.listedWallets, hrow] using hid
        obtain ⟨row, hmem, hkey⟩ := List.mem_map.mp ((h.consistent.listed_iff id).mp hlisted)
        exact Table.find_eq_none_iff.mp (of_decide_eq_true hnone) row hmem hkey
      simp only [hstale]
      rfl

theorem cleanUpDrafts_intact (h : Intact store) :
    ∃ store', cleanUpDrafts store = .ok store' ∧ Intact store' := by
  obtain ⟨store', hdone, hintact⟩ := Trapping.foldlM_ok
    (fun (store : Store) (draft : Wallet) => removeWallet draft.id store) h
    (fun draft _ store h => removeWallet_intact h draft.id)
  refine ⟨store', ?_, hintact⟩
  rw [cleanUpDrafts, hdone, Trapping.ok_bind, cleanUpPortfolio_eq hintact]

theorem selectWallet_intact (h : Intact store) (walletID : WalletID) :
    ∃ store', selectWallet walletID store = .ok store' ∧ Intact store' := by
  unfold selectWallet
  cases hfind : store.wallets.find walletID with
  | none => exact ⟨store, rfl, h⟩
  | some wallet =>
      rw [h.portfolio_eq]
      obtain ⟨hmem, -⟩ := Table.mem_of_find hfind
      have hlisted : wallet.id ∈ store.listedWallets :=
        (h.consistent.listed_iff _).mpr (List.mem_map_of_mem hmem)
      cases hrow : store.portfolio with
      | none => exact ⟨store, rfl, h⟩
      | some found =>
          have hin : wallet.id ∈ found.wallets := by
            simpa [Store.listedWallets, hrow] using hlisted
          simp only [Trapping.ok_bind, Portfolio.selectWallet_of_mem hin]
          have hsame : Store.listedWallets { store with
              portfolio := some { found with selectedWallet := some wallet.id } } =
              store.listedWallets := by
            simp [Store.listedWallets, hrow]
          refine ⟨_, rfl, ⟨?_, ?_, ?_, ?_, h.consistent.ether, h.consistent.accounts_owned,
            h.consistent.transactions_owned⟩, h.readable⟩
          · rw [hsame]
            exact h.consistent.listed_nodup
          · rw [hsame]
            exact h.consistent.listed_iff
          · have hrows : store.wallets.rows ≠ [] := List.ne_nil_of_mem hmem
            simpa [Store.selectedWalletID] using hrows
          · intro id hid
            rw [hsame]
            have hid' : wallet.id = id := by simpa [Store.selectedWalletID] using hid
            exact hid' ▸ hlisted

/-- There is nothing to repair. -/
theorem repairModelIfNeeded_eq (h : Intact store) : repairModelIfNeeded store = .ok store := by
  have hportfolio : repairPortfolio store = .ok store := by
    rw [repairPortfolio, h.portfolio_eq, Trapping.ok_bind]
    cases hrow : store.portfolio with
    | none => rfl
    | some found =>
        have horphans : ((store.wallets.rows.map Wallet.id).filter fun id =>
            !found.hasWallet id) = [] := by
          rw [List.filter_eq_nil_iff]
          intro id hid hnot
          have hlisted : id ∈ found.wallets := by
            simpa [Store.listedWallets, hrow] using (h.consistent.listed_iff id).mpr hid
          simp [Portfolio.hasWallet, hlisted] at hnot
        have hsame : { store with portfolio := some found } = store := by rw [← hrow]
        simp only [horphans, List.foldlM_nil, Trapping.pure_eq_ok, Trapping.ok_bind, hsame]
  rw [repairModelIfNeeded, hportfolio, Trapping.ok_bind, h.portfolio_eq, Trapping.ok_bind]
  cases hselected : store.selectedWalletID with
  | none =>
      have hrows := h.consistent.selected_none_iff.mp hselected
      rw [Store.selectedWalletID] at hselected
      simp only [hselected, hrows, List.head?_nil]
      rfl
  | some id =>
      have hstored := (h.consistent.listed_iff id).mp (h.consistent.selected_listed id hselected)
      obtain ⟨wallet, hmem, rfl⟩ := List.mem_map.mp hstored
      rw [Store.selectedWalletID] at hselected
      simp only [hselected, Option.bind_eq_bind, Option.bind_some, Table.find_of_mem hmem]
      rfl

/-! ## Calls without assertions -/

/-- Where the portfolio is consistent, the assertions in a call may be left out. -/
theorem alone_createNewDraftWallet (h : Intact store) (account : ExternallyOwnedAccount)
    (outside : Outside) :
    ∃ app, (DeploymentDomainService.createNewDraftWallet services account).alone outside
        (.ofStore store) = (.ok (), app) ∧
      createNewDraftWallet services account store = .ok app.store := by
  obtain ⟨found, hfetch, hwallets⟩ := fetchOrCreatePortfolio_eq h.portfolio_eq
  have hnew : nextID services store ∉ found.wallets := hwallets ▸ nextID_not_listed h.consistent
  obtain ⟨added, hadd, hselect⟩ := addWallet_selectWallet hnew
  have hid : nextID services (newOwner account { store with portfolio := some found }) =
      nextID services store := rfl
  refine ⟨_, rfl, ?_⟩
  simp only [createNewDraftWallet, hfetch, Trapping.ok_bind, hid, hadd, hselect, hwallets]
  rfl

theorem alone_createRecoverDraftWallet (h : Intact store) (account : ExternallyOwnedAccount)
    (outside : Outside) :
    ∃ app, (RecoveryDomainService.createRecoverDraftWallet services account).alone outside
        (.ofStore store) = (.ok (), app) ∧
      createRecoverDraftWallet services account store = .ok app.store := by
  have hload : portfolio (createAccount (nextID services store) (saveWallet
      (RecoveryDomainService.draftWallet (nextID services store) account.address)
        (newOwner account store))) = .ok store.portfolio := by
    rw [← h.portfolio_eq]
    exact portfolio_congr rfl
  have hnew : nextID services store ∉ store.listedWallets := nextID_not_listed h.consistent
  exact ⟨_, rfl, addToPortfolio_eq hload hnew⟩

theorem alone_removeWallet (h : Intact store) (walletID : WalletID) (outside : Outside) :
    ∃ app, (WalletDomainService.removeWallet walletID).alone outside (.ofStore store) =
        (.ok (), app) ∧ removeWallet walletID store = .ok app.store :=
  ⟨_, WalletDomainService.alone_removeWallet, removeWallet_eq h.portfolio_eq⟩

/-! ## Other writes -/

/-- A write for wallets that are stored leaves the portfolio alone. -/
theorem Intact.of_write (h : Intact store) (hportfolio : store'.portfolio = store.portfolio)
    (hrows : ∀ id, store'.hasWallet id ↔ store.hasWallet id)
    (hkeeps : ∀ account ∈ store.accounts.rows, ∃ kept ∈ store'.accounts.rows, kept.id = account.id)
    (haccounts : ∀ account ∈ store'.accounts.rows, store.hasWallet account.id.walletID)
    (htransactions : ∀ tx ∈ store'.transactions.rows, store.hasWallet tx.accountID.walletID) :
    Intact store' := by
  have hlisted : store'.listedWallets = store.listedWallets := by
    rw [Store.listedWallets, Store.listedWallets, hportfolio]
  have hselected : store'.selectedWalletID = store.selectedWalletID := by
    rw [Store.selectedWalletID, Store.selectedWalletID, hportfolio]
  have hmem : ∀ id, id ∈ store'.listedWallets ↔ store'.hasWallet id := by
    intro id
    rw [hlisted, hrows, h.consistent.listed_iff]
  refine ⟨⟨?_, hmem, ?_, ?_, ?_, ?_, ?_⟩, fun id hid => h.readable id ((hrows id).mp hid)⟩
  · rw [hlisted]
    exact h.consistent.listed_nodup
  · rw [hselected, h.consistent.selected_none_iff, Store.rows_eq_nil_iff, Store.rows_eq_nil_iff]
    simp only [hrows]
  · rw [hselected, hlisted]
    exact h.consistent.selected_listed
  · intro id hid
    obtain ⟨account, haccount, hkey⟩ := h.consistent.ether id ((hrows id).mp hid)
    obtain ⟨kept, hkept, hsame⟩ := hkeeps account haccount
    exact ⟨kept, hkept, hsame.trans hkey⟩
  · exact fun account haccount => (hrows _).mpr (haccounts account haccount)
  · exact fun tx htx => (hrows _).mpr (htransactions tx htx)

/-- A new version of a stored wallet. -/
theorem saveWallet_intact (h : Intact store) {wallet : Wallet} (hstored : store.hasWallet wallet.id) :
    Intact (saveWallet wallet store) := by
  apply h.of_write
  · rfl
  · intro id
    rw [Store.hasWallet_save, or_iff_right_iff_imp]
    rintro rfl
    exact hstored
  · exact fun account haccount => ⟨account, haccount, rfl⟩
  · exact h.consistent.accounts_owned
  · exact h.consistent.transactions_owned

/-- `AccountRepository.save(_:)`. -/
def saveAccount (account : Account) (store : Store) : Store :=
  { store with accounts := store.accounts.save account }

theorem saveAccount_intact (h : Intact store) {account : Account}
    (hstored : store.hasWallet account.id.walletID) : Intact (saveAccount account store) := by
  apply h.of_write
  · rfl
  · exact fun id => Iff.rfl
  · intro other hother
    by_cases hsame : other.id = account.id
    · exact ⟨account, Table.mem_rows_save.mpr (.inl rfl), hsame.symm⟩
    · exact ⟨other, Table.mem_rows_save.mpr (.inr ⟨hother, hsame⟩), rfl⟩
  · intro other hother
    rcases Table.mem_rows_save.mp hother with rfl | ⟨hold, -⟩
    · exact hstored
    · exact h.consistent.accounts_owned other hold
  · exact h.consistent.transactions_owned

/-- `TransactionRepository.save(_:)`. -/
def saveTransaction (tx : Transaction) (store : Store) : Store :=
  { store with transactions := store.transactions.store tx }

theorem saveTransaction_intact (h : Intact store) {tx : Transaction}
    (hstored : store.hasWallet tx.accountID.walletID) : Intact (saveTransaction tx store) := by
  apply h.of_write
  · rfl
  · exact fun id => Iff.rfl
  · exact fun account haccount => ⟨account, haccount, rfl⟩
  · exact h.consistent.accounts_owned
  · intro other hother
    rcases Table.mem_rows_save.mp hother with rfl | ⟨hold, -⟩
    · exact hstored
    · exact h.consistent.transactions_owned other hold

/-! ## Runs -/

/-- The calls that work on the portfolio, and the other writes. -/
inductive Operation
  | createNewDraftWallet (services : Services) (account : ExternallyOwnedAccount)
  | createRecoverDraftWallet (services : Services) (account : ExternallyOwnedAccount)
  | createAndSelectMultisigWallet (services : Services) (address : Address)
  | removeWallet (walletID : WalletID)
  | selectWallet (walletID : WalletID)
  | cleanUpDrafts
  | repairModelIfNeeded
  | saveWallet (wallet : Wallet)
  | saveAccount (account : Account)
  | saveTransaction (tx : Transaction)

/-- What a completed call leaves in the repositories. -/
def Operation.perform : Operation → Store → Trapping Store
  | createNewDraftWallet services account => Completed.createNewDraftWallet services account
  | createRecoverDraftWallet services account => Completed.createRecoverDraftWallet services account
  | createAndSelectMultisigWallet services address =>
    Completed.createAndSelectMultisigWallet services address
  | removeWallet walletID => Completed.removeWallet walletID
  | selectWallet walletID => Completed.selectWallet walletID
  | cleanUpDrafts => Completed.cleanUpDrafts
  | repairModelIfNeeded => Completed.repairModelIfNeeded
  | saveWallet wallet => fun store => return Completed.saveWallet wallet store
  | saveAccount account => fun store => return Completed.saveAccount account store
  | saveTransaction tx => fun store => return Completed.saveTransaction tx store

/-- A new identifier is the text of a UUID, and the other writes are for stored wallets. -/
def Operation.Allowed (store : Store) : Operation → Prop
  | createNewDraftWallet services _ => WalletIDList.Plain (nextID services store)
  | createRecoverDraftWallet services _ => WalletIDList.Plain (nextID services store)
  | createAndSelectMultisigWallet services _ => WalletIDList.Plain (nextID services store)
  | saveWallet wallet => store.hasWallet wallet.id
  | saveAccount account => store.hasWallet account.id.walletID
  | saveTransaction tx => store.hasWallet tx.accountID.walletID
  | _ => True

open WalletDomainService in
/-- The program stops while it reads the contract of a wallet that is loaded. -/
def Operation.StopsLoading (store : Store) : Operation → Prop
  | createAndSelectMultisigWallet services address => ∃ reason,
    updateWalletWithOnchainData services
      (Completed.saveWallet (multisigWallet (nextID services store) address) store)
      (nextID services store) = .error reason
  | _ => False

/-- A call is completed and keeps everything consistent. No assertion of the portfolio fails. -/
theorem Operation.perform_intact (h : Intact store) (operation : Operation)
    (hallowed : operation.Allowed store) :
    (∃ store', operation.perform store = .ok store' ∧ Intact store') ∨
      operation.StopsLoading store := by
  cases operation with
  | createNewDraftWallet services account =>
      obtain ⟨store', hdone, hadded⟩ :=
        createNewDraftWallet_added h.consistent h.readable account
      exact .inl ⟨store', hdone, hadded.intact h hallowed⟩
  | createRecoverDraftWallet services account =>
      obtain ⟨store', hdone, hadded⟩ :=
        createRecoverDraftWallet_added h.consistent h.readable account
      exact .inl ⟨store', hdone, hadded.intact h hallowed⟩
  | createAndSelectMultisigWallet services address =>
      cases hupdate : WalletDomainService.updateWalletWithOnchainData services
          (Completed.saveWallet (WalletDomainService.multisigWallet (nextID services store) address)
            store) (nextID services store) with
      | error reason => exact .inr ⟨reason, hupdate⟩
      | ok result =>
          obtain ⟨store', hdone, rfl | hadded⟩ :=
            createAndSelectMultisigWallet_added h.consistent h.readable hupdate
          · exact .inl ⟨_, hdone, h⟩
          · exact .inl ⟨store', hdone, hadded.intact h hallowed⟩
  | removeWallet walletID => exact .inl (removeWallet_intact h walletID)
  | selectWallet walletID => exact .inl (selectWallet_intact h walletID)
  | cleanUpDrafts => exact .inl (cleanUpDrafts_intact h)
  | repairModelIfNeeded => exact .inl ⟨store, repairModelIfNeeded_eq h, h⟩
  | saveWallet wallet => exact .inl ⟨_, rfl, saveWallet_intact h hallowed⟩
  | saveAccount account => exact .inl ⟨_, rfl, saveAccount_intact h hallowed⟩
  | saveTransaction tx => exact .inl ⟨_, rfl, saveTransaction_intact h hallowed⟩

theorem Operation.perform_of_stopsLoading {operation : Operation}
    (h : operation.StopsLoading store) : ∃ reason, operation.perform store = .error reason := by
  cases operation with
  | createAndSelectMultisigWallet services address =>
      obtain ⟨reason, hreason⟩ := h
      refine ⟨reason, ?_⟩
      simp only [perform, Completed.createAndSelectMultisigWallet, hreason]
      rfl
  | _ => exact h.elim

/-- One completed call. -/
def Step (store store' : Store) : Prop :=
  ∃ operation : Operation, operation.Allowed store ∧ operation.perform store = .ok store'

theorem emptyStore_intact : Intact WalletDomainService.emptyStore := by
  refine ⟨⟨?_, ?_, ?_, ?_, ?_, ?_, ?_⟩, ?_⟩ <;>
    simp [WalletDomainService.emptyStore, Store.ofWallets, Store.listedWallets,
      Store.selectedWalletID, Store.hasWallet, Store.Readable, Table.empty]

theorem intact_of_run (h : Relation.ReflTransGen Step WalletDomainService.emptyStore store) :
    Intact store := by
  induction h with
  | refl => exact emptyStore_intact
  | tail _ hstep ih =>
      obtain ⟨operation, hallowed, hdone⟩ := hstep
      rcases operation.perform_intact ih hallowed with ⟨store', hdone', hintact⟩ | hstops
      · rw [hdone] at hdone'
        cases hdone'
        exact hintact
      · obtain ⟨reason, hreason⟩ := Operation.perform_of_stopsLoading hstops
        rw [hdone] at hreason
        cases hreason

/-- In every state that completed calls reach, the portfolio and the wallets are consistent and
the next call does not stop at an assertion of the portfolio. -/
theorem portfolio_consistent
    (h : Relation.ReflTransGen Step WalletDomainService.emptyStore store) :
    store.Consistent ∧ portfolio store = .ok store.portfolio ∧
      ∀ operation : Operation, operation.Allowed store →
        (∃ store', operation.perform store = .ok store') ∨ operation.StopsLoading store := by
  have hintact := intact_of_run h
  refine ⟨hintact.consistent, hintact.portfolio_eq, fun operation hallowed => ?_⟩
  rcases operation.perform_intact hintact hallowed with ⟨store', hdone, -⟩ | hstops
  · exact .inl ⟨store', hdone⟩
  · exact .inr hstops

section Example

open WalletDomainService

/-- The repositories that a completed call leaves. -/
def resulting : Trapping Store → Store
  | .ok store => store
  | .error _ => emptyStore

theorem step_resulting {operation : Operation} (hallowed : operation.Allowed store)
    (hdone : (operation.perform store).toBool = true) :
    Step store (resulting (operation.perform store)) := by
  refine ⟨operation, hallowed, ?_⟩
  cases h : operation.perform store with
  | ok store' => rfl
  | error reason =>
      rw [h] at hdone
      cases hdone

/-- A wallet is begun. -/
def draftedStore : Store :=
  resulting ((Operation.createNewDraftWallet loadedServices deviceAccount).perform emptyStore)

/-- A second one is begun, which is to be recovered. -/
def recoveringStore : Store :=
  resulting ((Operation.createRecoverDraftWallet loadedServices deviceAccount).perform draftedStore)

/-- The first one is selected. -/
def switchedStore : Store := resulting ((Operation.selectWallet "A").perform recoveringStore)

/-- The first one is removed. -/
def shortenedStore : Store := resulting ((Operation.removeWallet "A").perform switchedStore)

/-- The selection moves to the first wallet and, when that one is removed, to the other one. -/
theorem portfolio_consistent_calls :
    recoveringStore.listedWallets = ["A", "AA"] ∧ switchedStore.selectedWalletID = some "A" ∧
      shortenedStore.listedWallets = ["AA"] ∧ shortenedStore.selectedWalletID = some "AA" ∧
      shortenedStore.Consistent := by
  have hdrafted : Step emptyStore draftedStore :=
    step_resulting (by decide +kernel : WalletIDList.Plain (nextID loadedServices emptyStore))
      (by decide +kernel)
  have hrecovering : Step draftedStore recoveringStore :=
    step_resulting (by decide +kernel : WalletIDList.Plain (nextID loadedServices draftedStore))
      (by decide +kernel)
  have hswitched : Step recoveringStore switchedStore := step_resulting trivial (by decide +kernel)
  have hshortened : Step switchedStore shortenedStore := step_resulting trivial (by decide +kernel)
  have hrun : Relation.ReflTransGen Step emptyStore shortenedStore :=
    (((Relation.ReflTransGen.single hdrafted).tail hrecovering).tail hswitched).tail hshortened
  exact ⟨by decide +kernel, by decide +kernel, by decide +kernel, by decide +kernel,
    (portfolio_consistent hrun).1⟩

end Example

end Completed

end SafeWallet
