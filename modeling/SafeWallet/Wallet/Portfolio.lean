/-
# The portfolio and the wallets

The portfolio lists the identifiers of the wallets, which are rows of another repository, and
selects one of them. Adding a wallet that is listed and selecting one that is not are forced
assertions, and every read of the portfolio adds and selects all over again what is stored.

The calls are taken from their beginning to their end, with the assertions in them. Whatever
else the program saves in between belongs to wallets that are stored.
-/

import SafeWallet.Wallet.WalletRemoval

namespace SafeWallet

namespace Portfolio

/-- `hasWallet(_:)`. -/
def hasWallet (portfolio : Portfolio) (walletID : WalletID) : Bool := walletID ∈ portfolio.wallets

/-- `addWallet(_:)`. -/
def addWallet (portfolio : Portfolio) (walletID : WalletID) : Trapping Portfolio := do
  Trapping.require !portfolio.hasWallet walletID
  return {
    wallets := portfolio.wallets ++ [walletID]
    selectedWallet := if portfolio.wallets = [] then some walletID else portfolio.selectedWallet }

/-- `selectWallet(_:)`. -/
def selectWallet (portfolio : Portfolio) (walletID : WalletID) : Trapping Portfolio := do
  Trapping.require (portfolio.hasWallet walletID)
  return { portfolio with selectedWallet := some walletID }

/-- `init(id:)`. -/
def empty : Portfolio := ⟨[], none⟩

/-- `init(id:wallets:selectedWallet:)`. -/
def make (wallets : List WalletID) (selectedWallet : Option WalletID) : Trapping Portfolio := do
  let portfolio ← wallets.foldlM addWallet empty
  match selectedWallet with
  | none => return portfolio
  | some walletID =>
    if portfolio.hasWallet walletID then portfolio.selectWallet walletID else return portfolio

end Portfolio

namespace WalletIDList

/-- `serializedValue`. -/
def serializedValue (wallets : List WalletID) : String :=
  String.ofList ([','].intercalate ((wallets.map String.toList).filter fun id => id ≠ []))

/-- `init(serializedString:)`. -/
def ofSerialized (serializedString : String) : List WalletID :=
  ((serializedString.toList.splitOn ',').filter fun id => id ≠ []).map String.ofList

/-- The text of a UUID is not empty and has no comma in it. -/
def Plain (walletID : WalletID) : Prop := walletID.toList ≠ [] ∧ ',' ∉ walletID.toList

instance (walletID : WalletID) : Decidable (Plain walletID) :=
  inferInstanceAs (Decidable (_ ∧ _))

/-- Lists of plain identifiers are read back as they were written. -/
theorem ofSerialized_serializedValue {wallets : List WalletID} (h : ∀ id ∈ wallets, Plain id) :
    ofSerialized (serializedValue wallets) = wallets := by
  have hfilter : ((wallets.map String.toList).filter fun id => id ≠ []) =
      wallets.map String.toList := by
    rw [List.filter_eq_self]
    intro text htext
    obtain ⟨id, hid, rfl⟩ := List.mem_map.mp htext
    exact decide_eq_true (h id hid).1
  have hback : (wallets.map String.toList).map String.ofList = wallets := by
    simp [Function.comp_def]
  rw [ofSerialized, serializedValue, hfilter, String.toList_ofList]
  cases wallets with
  | nil => rfl
  | cons first rest =>
      rw [List.splitOn_intercalate, hfilter, hback]
      · intro text htext
        obtain ⟨id, hid, rfl⟩ := List.mem_map.mp htext
        exact (h id hid).2
      · simp

end WalletIDList

/-! ## Completed calls -/

namespace Completed

open WalletDomainService (multisigWallet updateWalletWithOnchainData)

variable (services : Services)

/-- `SinglePortfolioRepository.portfolio()`: the row is read and put together again. -/
def portfolio (store : Store) : Trapping (Option Portfolio) :=
  match store.portfolio with
  | none => return none
  | some row => do
    let wallets := WalletIDList.ofSerialized (WalletIDList.serializedValue row.wallets)
    return some (← Portfolio.make wallets row.selectedWallet)

/-- `fetchOrCreatePortfolio()`. -/
def fetchOrCreatePortfolio (store : Store) : Trapping (Portfolio × Store) := do
  match ← portfolio store with
  | some found => return (found, store)
  | none => return (.empty, { store with portfolio := some .empty })

/-- An account in Ether is opened for a wallet. -/
def createAccount (walletID : WalletID) (store : Store) : Store :=
  { store with accounts := store.accounts.save ⟨⟨Token.Ether.id, walletID⟩, none⟩ }

/-- The wallet is added, selected, and the portfolio is saved. -/
def addToPortfolio (walletID : WalletID) (store : Store) : Trapping Store := do
  let (portfolio, store) ← fetchOrCreatePortfolio store
  let portfolio ← portfolio.addWallet walletID
  let portfolio ← portfolio.selectWallet walletID
  return { store with portfolio := some portfolio }

/-- `newOwner()` with the key the generator makes. -/
def newOwner (account : ExternallyOwnedAccount) (store : Store) : Store :=
  { store with externallyOwnedAccounts := store.externallyOwnedAccounts.save account }

/-- `WalletRepository.nextID()`. -/
def nextID (store : Store) : WalletID := services.nextID (store.wallets.rows.map Wallet.id)

/-- `WalletRepository.save(_:)`. -/
def saveWallet (wallet : Wallet) (store : Store) : Store :=
  { store with wallets := store.wallets.save wallet }

/-- `createNewDraftWallet()`. -/
def createNewDraftWallet (account : ExternallyOwnedAccount) (store : Store) : Trapping Store := do
  let (portfolio, store) ← fetchOrCreatePortfolio store
  let store := newOwner account store
  let walletID := nextID services store
  let portfolio ← portfolio.addWallet walletID
  let portfolio ← portfolio.selectWallet walletID
  let store := saveWallet (DeploymentDomainService.draftWallet walletID account.address) store
  return createAccount walletID { store with portfolio := some portfolio }

/-- `createRecoverDraftWallet()`. -/
def createRecoverDraftWallet (account : ExternallyOwnedAccount) (store : Store) :
    Trapping Store := do
  let store := newOwner account store
  let walletID := nextID services store
  let store := saveWallet (RecoveryDomainService.draftWallet walletID account.address) store
  addToPortfolio walletID (createAccount walletID store)

/-- `createAndSelectMultisigWallet(walletData:)`. -/
def createAndSelectMultisigWallet (address : Address) (store : Store) : Trapping Store := do
  let walletID := nextID services store
  let store := saveWallet (multisigWallet walletID address) store
  let (updated, store) ← updateWalletWithOnchainData services store walletID
  if updated then
    let store ← addToPortfolio walletID store
    return createAccount walletID store
  else return { store with wallets := store.wallets.remove walletID }

/-- `removeFromPortfolio(walletID:)`. -/
def removeFromPortfolio (walletID : WalletID) (store : Store) : Trapping Store := do
  match ← portfolio store with
  | none => return store
  | some found => return { store with portfolio := some (found.removeWallet walletID) }

/-- `removeAccounts(for:)` and `removeTransactions(for:)`. -/
def removeAccountsAndTransactions (walletID : WalletID) (store : Store) : Store :=
  let transactions := (store.transactions.findWallet walletID).map Transaction.id
  { store with
    accounts := store.accounts.removeAll ((store.accountsOf walletID).map Account.id)
    transactions := store.transactions.removeAll transactions
    transactionMonitors := store.transactionMonitors.filter (· ∉ transactions) }

/-- `removeWallet(_:)`. -/
def removeWallet (walletID : WalletID) (store : Store) : Trapping Store := do
  let store := match store.wallets.find walletID with
    | none => store
    | some wallet => store.withoutWalletData wallet
  let store ← removeFromPortfolio walletID store
  return removeAccountsAndTransactions walletID store

/-- `cleanUpPortfolio()`. -/
def cleanUpPortfolio (store : Store) : Trapping Store := do
  match ← portfolio store with
  | none => return store
  | some found =>
    let staleWallets := found.wallets.filter fun walletID => store.wallets.find walletID = none
    staleWallets.foldlM (fun store walletID => do
      let store ← removeFromPortfolio walletID store
      return removeAccountsAndTransactions walletID store) store

/-- `cleanUpDrafts()`. -/
def cleanUpDrafts (store : Store) : Trapping Store := do
  let drafts := store.wallets.rows.filter fun wallet =>
    wallet.state = .draft ∨ wallet.state = .recoveryDraft
  let store ← drafts.foldlM (fun store draft => removeWallet draft.id store) store
  cleanUpPortfolio store

/-- `selectWallet(_:)`. -/
def selectWallet (walletID : WalletID) (store : Store) : Trapping Store :=
  match store.wallets.find walletID with
  | none => return store
  | some wallet => do
    match ← portfolio store with
    | none => return store
    | some found =>
      let selected ← found.selectWallet wallet.id
      return { store with portfolio := some selected }

/-- The wallets outside of the portfolio are added to it. -/
def repairPortfolio (store : Store) : Trapping Store := do
  match ← portfolio store with
  | none => return store
  | some found =>
    let orphanWallets := (store.wallets.rows.map Wallet.id).filter fun id => !found.hasWallet id
    let repaired ← orphanWallets.foldlM Portfolio.addWallet found
    return { store with portfolio := some repaired }

/-- `repairModelIfNeeded()`. -/
def repairModelIfNeeded (store : Store) : Trapping Store := do
  let store ← repairPortfolio store
  let selectedID := (← portfolio store).bind Portfolio.selectedWallet
  match selectedID >>= store.wallets.find, store.wallets.rows.head? with
  | none, some first => selectWallet first.id store
  | _, _ => return store

end Completed

/-! ## Consistent repositories -/

namespace Store

/-- A wallet with this identifier is stored. -/
def hasWallet (store : Store) (walletID : WalletID) : Prop :=
  walletID ∈ store.wallets.rows.map Wallet.id

/-- The identifiers that the portfolio lists. -/
def listedWallets (store : Store) : List WalletID :=
  (store.portfolio.map Portfolio.wallets).getD []

/-- The identifier that the portfolio selects. -/
def selectedWalletID (store : Store) : Option WalletID :=
  store.portfolio.bind Portfolio.selectedWallet

/-- The portfolio is that of the stored wallets, and so are accounts and transactions. -/
structure Consistent (store : Store) : Prop where
  listed_nodup : store.listedWallets.Nodup
  listed_iff : ∀ id, id ∈ store.listedWallets ↔ store.hasWallet id
  selected_none_iff : store.selectedWalletID = none ↔ store.wallets.rows = []
  selected_listed : ∀ id, store.selectedWalletID = some id → id ∈ store.listedWallets
  ether : ∀ id, store.hasWallet id → ∃ account ∈ store.accounts.rows,
    account.id = ⟨Token.Ether.id, id⟩
  accounts_owned : ∀ account ∈ store.accounts.rows, store.hasWallet account.id.walletID
  transactions_owned : ∀ tx ∈ store.transactions.rows, store.hasWallet tx.accountID.walletID

/-- The identifiers of the wallets are texts of UUIDs. -/
def Readable (store : Store) : Prop := ∀ id, store.hasWallet id → WalletIDList.Plain id

variable {store store' : Store} {walletID : WalletID} {wallet : Wallet}

theorem rows_eq_nil_iff : store.wallets.rows = [] ↔ ∀ id, ¬ store.hasWallet id := by
  rw [← List.map_eq_nil_iff (f := Wallet.id), List.eq_nil_iff_forall_not_mem]
  rfl

theorem listed_eq_nil_iff (h : ∀ id, id ∈ store.listedWallets ↔ store.hasWallet id) :
    store.listedWallets = [] ↔ store.wallets.rows = [] := by
  rw [List.eq_nil_iff_forall_not_mem, rows_eq_nil_iff]
  simp only [h]

theorem hasWallet_save {id : WalletID} :
    (Completed.saveWallet wallet store).hasWallet id ↔ id = wallet.id ∨ store.hasWallet id := by
  simp only [hasWallet, Completed.saveWallet, List.mem_map, Table.mem_rows_save]
  constructor
  · rintro ⟨row, rfl | ⟨hrow, -⟩, rfl⟩
    · exact .inl rfl
    · exact .inr ⟨row, hrow, rfl⟩
  · rintro (rfl | ⟨row, hrow, rfl⟩)
    · exact ⟨wallet, .inl rfl, rfl⟩
    · by_cases hsame : row.id = wallet.id
      · exact ⟨wallet, .inl rfl, hsame.symm⟩
      · exact ⟨row, .inr ⟨hrow, hsame⟩, rfl⟩

end Store

/-! ## Reading the portfolio -/

namespace Portfolio

variable {portfolio : Portfolio} {walletID : WalletID}

theorem addWallet_of_not_mem (h : walletID ∉ portfolio.wallets) :
    portfolio.addWallet walletID = .ok {
      wallets := portfolio.wallets ++ [walletID]
      selectedWallet :=
        if portfolio.wallets = [] then some walletID else portfolio.selectedWallet } := by
  simp [addWallet, hasWallet, h]

theorem selectWallet_of_mem (h : walletID ∈ portfolio.wallets) :
    portfolio.selectWallet walletID = .ok { portfolio with selectedWallet := some walletID } := by
  simp [selectWallet, hasWallet, h]

/-- Different wallets can all be added. -/
theorem foldlM_addWallet {rest : List WalletID} (h : (portfolio.wallets ++ rest).Nodup) :
    ∃ selected, rest.foldlM addWallet portfolio = .ok ⟨portfolio.wallets ++ rest, selected⟩ := by
  induction rest generalizing portfolio with
  | nil => exact ⟨portfolio.selectedWallet, by simp⟩
  | cons first rest ih =>
      have hnot : first ∉ portfolio.wallets := by
        intro hmem
        exact (List.nodup_append.mp h).2.2 first hmem first List.mem_cons_self rfl
      rw [List.foldlM_cons, addWallet_of_not_mem hnot, Trapping.ok_bind]
      rw [List.append_cons portfolio.wallets first rest] at h ⊢
      apply ih
      exact h

/-- What is consistent is read back as it is. -/
theorem make_eq {wallets : List WalletID} {selected : Option WalletID} (hnodup : wallets.Nodup)
    (hnone : selected = none → wallets = []) (hlisted : ∀ id, selected = some id → id ∈ wallets) :
    make wallets selected = .ok ⟨wallets, selected⟩ := by
  cases selected with
  | none =>
      rw [hnone rfl]
      rfl
  | some id =>
      have hempty : (empty.wallets ++ wallets).Nodup := hnodup
      obtain ⟨first, hfold⟩ := foldlM_addWallet hempty
      have hmem : id ∈ (⟨empty.wallets ++ wallets, first⟩ : Portfolio).wallets := hlisted id rfl
      rw [make, hfold, Trapping.ok_bind]
      simp only [hasWallet, hmem, decide_true, if_true]
      rw [selectWallet_of_mem hmem]
      rfl

end Portfolio

namespace Completed

variable {services : Services} {store store' : Store} {walletID : WalletID}

/-- Reading depends on the row alone. -/
theorem portfolio_congr (h : store'.portfolio = store.portfolio) :
    portfolio store' = portfolio store := by
  rw [portfolio, portfolio, h]

theorem portfolio_eq (h : store.Consistent) (hread : store.Readable) :
    portfolio store = .ok store.portfolio := by
  unfold portfolio
  cases hrow : store.portfolio with
  | none => rfl
  | some row =>
      have hwallets : store.listedWallets = row.wallets := by simp [Store.listedWallets, hrow]
      have hselected : store.selectedWalletID = row.selectedWallet := by
        simp [Store.selectedWalletID, hrow]
      have hplain : ∀ id ∈ row.wallets, WalletIDList.Plain id := by
        intro id hid
        rw [← hwallets, h.listed_iff] at hid
        exact hread id hid
      have hmake : Portfolio.make row.wallets row.selectedWallet = .ok row := by
        apply Portfolio.make_eq
        · rw [← hwallets]
          exact h.listed_nodup
        · rw [← hselected, ← hwallets, h.selected_none_iff, Store.listed_eq_nil_iff h.listed_iff]
          exact fun hempty => hempty
        · rw [← hselected, ← hwallets]
          exact h.selected_listed
      simp only [WalletIDList.ofSerialized_serializedValue hplain, hmake, Trapping.ok_bind]
      rfl

/-! ## New wallets -/

section Update

open WalletDomainService

theorem addOwners_id {wallets : List Wallet} {added : List Address} {wallet wallet' : Wallet}
    (h : addOwners services wallets added wallet = .ok wallet') : wallet'.id = wallet.id := by
  induction added generalizing wallet with
  | nil =>
      cases h
      rfl
  | cons address rest ih =>
      simp only [addOwners, Trapping.bind_eq_ok_iff] at h
      obtain ⟨checksummed, -, personal, -, h⟩ := h
      exact (ih h).trans (Wallet.addOwner_id _)

/-- The update saves the wallet under its own identifier, or nothing. -/
theorem updateWalletWithOnchainData_saved {updated : Bool}
    (h : updateWalletWithOnchainData services store walletID = .ok (updated, store')) :
    (updated = false ∧ store' = store) ∨
      (updated = true ∧ ∃ wallet : Wallet, wallet.id = walletID ∧
        store' = saveWallet wallet store) := by
  unfold updateWalletWithOnchainData at h
  cases hfind : store.wallets.find walletID with
  | none =>
      rw [hfind] at h
      cases h
      exact .inl ⟨rfl, rfl⟩
  | some wallet =>
      simp only [hfind, Trapping.bind_eq_ok_iff] at h
      obtain ⟨address, -, answer, -, h⟩ := h
      cases answer with
      | none =>
          cases h
          exact .inl ⟨rfl, rfl⟩
      | some owners =>
          simp only [Trapping.bind_eq_ok_iff] at h
          obtain ⟨answer, -, h⟩ := h
          cases answer with
          | none =>
              cases h
              exact .inl ⟨rfl, rfl⟩
          | some count =>
              cases hcopy : GnosisSafeContractProxy.masterCopyAddress services address with
              | none =>
                  simp only [hcopy] at h
                  cases h
                  exact .inl ⟨rfl, rfl⟩
              | some masterCopy =>
                  simp only [hcopy, withOnchainData, Trapping.bind_eq_ok_iff,
                    Trapping.pure_eq_ok, Except.ok.injEq] at h
                  obtain ⟨_, ⟨final, hfinal, rfl⟩, h⟩ := h
                  cases h
                  refine .inr ⟨rfl, { final with
                    masterCopyAddress := some masterCopy
                    confirmationCount := count
                    contractVersion := services.metadata.version masterCopy }, ?_, rfl⟩
                  rw [addOwners_id hfinal, Wallet.removeMissing_eq]
                  exact (Table.mem_of_find hfind).2

end Update

/-- A wallet is new: it has a row, is listed and selected, and has an account. -/
structure Added (walletID : WalletID) (store store' : Store) : Prop where
  rows : ∀ id, store'.hasWallet id ↔ id = walletID ∨ store.hasWallet id
  portfolio : store'.portfolio = some ⟨store.listedWallets ++ [walletID], some walletID⟩
  accounts : store'.accounts = store.accounts.save ⟨⟨Token.Ether.id, walletID⟩, none⟩
  transactions : store'.transactions = store.transactions

theorem Added.consistent (h : Added walletID store store') (hstore : store.Consistent)
    (hnew : ¬ store.hasWallet walletID) : store'.Consistent := by
  have hlisted : store'.listedWallets = store.listedWallets ++ [walletID] := by
    simp [Store.listedWallets, h.portfolio]
  have hselected : store'.selectedWalletID = some walletID := by
    simp [Store.selectedWalletID, h.portfolio]
  have haccount : ∀ account, account ∈ store'.accounts.rows ↔
      account = ⟨⟨Token.Ether.id, walletID⟩, none⟩ ∨
        (account ∈ store.accounts.rows ∧ account.id ≠ ⟨Token.Ether.id, walletID⟩) := by
    intro account
    rw [h.accounts, Table.mem_rows_save]
  constructor
  · rw [hlisted, ← List.concat_eq_append]
    apply hstore.listed_nodup.concat
    rw [hstore.listed_iff]
    exact hnew
  · intro id
    rw [hlisted, h.rows, List.mem_append, List.mem_singleton, hstore.listed_iff, or_comm]
  · rw [hselected]
    have hrow : store'.hasWallet walletID := (h.rows walletID).mpr (.inl rfl)
    constructor
    · exact fun hnone => absurd hnone (Option.some_ne_none walletID)
    · intro hempty
      simp [Store.hasWallet, hempty] at hrow
  · intro id hid
    rw [hselected] at hid
    rw [hlisted, ← Option.some.inj hid]
    exact List.mem_append_right _ List.mem_cons_self
  · intro id hid
    rcases (h.rows id).mp hid with rfl | hold
    · exact ⟨_, (haccount _).mpr (.inl rfl), rfl⟩
    · obtain ⟨account, hmem, hkey⟩ := hstore.ether id hold
      refine ⟨account, (haccount account).mpr (.inr ⟨hmem, ?_⟩), hkey⟩
      rw [hkey]
      intro heq
      have hid' : id = walletID := congrArg AccountID.walletID heq
      exact hnew (hid' ▸ hold)
  · intro account hmem
    rw [h.rows]
    rcases (haccount account).mp hmem with rfl | ⟨hold, -⟩
    · exact .inl rfl
    · exact .inr (hstore.accounts_owned account hold)
  · intro tx htx
    rw [h.transactions] at htx
    exact (h.rows _).mpr (.inr (hstore.transactions_owned tx htx))

theorem Added.readable (h : Added walletID store store') (hstore : store.Readable)
    (hplain : WalletIDList.Plain walletID) : store'.Readable := by
  intro id hid
  rcases (h.rows id).mp hid with rfl | hold
  · exact hplain
  · exact hstore id hold

theorem not_hasWallet_nextID : ¬ store.hasWallet (nextID services store) :=
  services.nextID_not_mem _

theorem fetchOrCreatePortfolio_eq (h : portfolio store = .ok store.portfolio) :
    ∃ found, fetchOrCreatePortfolio store = .ok (found, { store with portfolio := some found }) ∧
      found.wallets = store.listedWallets := by
  rw [fetchOrCreatePortfolio, h]
  cases hrow : store.portfolio with
  | none => exact ⟨.empty, rfl, by simp [Store.listedWallets, hrow, Portfolio.empty]⟩
  | some row =>
      have hsame : { store with portfolio := some row } = store := by rw [← hrow]
      refine ⟨row, ?_, by simp [Store.listedWallets, hrow]⟩
      rw [hsame]
      rfl

/-- A wallet that is not listed is added and selected without a failed assertion. -/
theorem addWallet_selectWallet {found : Portfolio} (h : walletID ∉ found.wallets) :
    ∃ added, found.addWallet walletID = .ok added ∧
      added.selectWallet walletID = .ok ⟨found.wallets ++ [walletID], some walletID⟩ := by
  refine ⟨_, Portfolio.addWallet_of_not_mem h, ?_⟩
  rw [Portfolio.selectWallet_of_mem (List.mem_append_right _ List.mem_cons_self)]

theorem addToPortfolio_eq (hload : portfolio store = .ok store.portfolio)
    (hnew : walletID ∉ store.listedWallets) :
    addToPortfolio walletID store = .ok (RecoveryDomainService.addToPortfolio walletID store) := by
  obtain ⟨found, hfetch, hwallets⟩ := fetchOrCreatePortfolio_eq hload
  rw [← hwallets] at hnew
  obtain ⟨added, hadd, hselect⟩ := addWallet_selectWallet hnew
  simp only [addToPortfolio, hfetch, Trapping.ok_bind, hadd, hselect, Trapping.pure_eq_ok, hwallets]
  rfl

section Create

variable (h : store.Consistent) (hread : store.Readable)

include h in
theorem nextID_not_listed : nextID services store ∉ store.listedWallets := by
  rw [h.listed_iff]
  exact not_hasWallet_nextID

include h hread

theorem createNewDraftWallet_added (account : ExternallyOwnedAccount) :
    ∃ store', createNewDraftWallet services account store = .ok store' ∧
      Added (nextID services store) store store' := by
  obtain ⟨found, hfetch, hwallets⟩ := fetchOrCreatePortfolio_eq (portfolio_eq h hread)
  have hnew : nextID services store ∉ found.wallets := hwallets ▸ nextID_not_listed h
  obtain ⟨added, hadd, hselect⟩ := addWallet_selectWallet hnew
  have hid : nextID services (newOwner account { store with portfolio := some found }) =
      nextID services store := rfl
  simp only [createNewDraftWallet, hfetch, Trapping.ok_bind, hid, hadd, hselect]
  refine ⟨_, rfl, ?_, ?_, rfl, rfl⟩
  · exact fun id => Store.hasWallet_save
  · rw [← hwallets]
    rfl

theorem createRecoverDraftWallet_added (account : ExternallyOwnedAccount) :
    ∃ store', createRecoverDraftWallet services account store = .ok store' ∧
      Added (nextID services store) store store' := by
  have hload : portfolio (createAccount (nextID services store) (saveWallet
      (RecoveryDomainService.draftWallet (nextID services store) account.address)
        (newOwner account store))) = .ok store.portfolio := by
    rw [← portfolio_eq h hread]
    exact portfolio_congr rfl
  have hnew : nextID services store ∉ store.listedWallets := nextID_not_listed h
  exact ⟨_, addToPortfolio_eq hload hnew, fun id => Store.hasWallet_save, rfl, rfl, rfl⟩

open WalletDomainService in
/-- Loading a wallet fails without a trace, or adds the wallet. -/
theorem createAndSelectMultisigWallet_added {address : Address} {updated : Bool} {saved : Store}
    (hupdate : updateWalletWithOnchainData services
      (saveWallet (multisigWallet (nextID services store) address) store)
      (nextID services store) = .ok (updated, saved)) :
    ∃ store', createAndSelectMultisigWallet services address store = .ok store' ∧
      (store' = store ∨ Added (nextID services store) store store') := by
  simp only [createAndSelectMultisigWallet, hupdate, Trapping.ok_bind]
  rcases updateWalletWithOnchainData_saved hupdate with ⟨rfl, rfl⟩ | ⟨rfl, wallet, hid, rfl⟩
  · refine ⟨_, rfl, .inl ?_⟩
    have hnone : store.wallets.find (nextID services store) = none :=
      Table.find_eq_none_iff.mpr fun row hrow heq =>
        not_hasWallet_nextID (List.mem_map.mpr ⟨row, hrow, heq⟩)
    have hremove : (store.wallets.save (multisigWallet (nextID services store) address)).remove
        (nextID services store) = store.wallets := Table.remove_save_of_find_eq_none hnone
    simp only [saveWallet, hremove]
  · have hload : portfolio (saveWallet wallet (saveWallet
        (multisigWallet (nextID services store) address) store)) = .ok store.portfolio := by
      rw [← portfolio_eq h hread]
      exact portfolio_congr rfl
    have hnew : nextID services store ∉ store.listedWallets := nextID_not_listed h
    have hadd := addToPortfolio_eq hload hnew
    simp only [if_true, hadd, Trapping.ok_bind]
    refine ⟨_, rfl, .inr ⟨fun id => ?_, rfl, rfl, rfl⟩⟩
    have hrows : (saveWallet wallet (saveWallet (multisigWallet (nextID services store) address)
        store)).hasWallet id ↔ id = nextID services store ∨ store.hasWallet id := by
      rw [Store.hasWallet_save, Store.hasWallet_save, hid]
      exact or_self_left
    exact hrows

end Create

end Completed

end SafeWallet
