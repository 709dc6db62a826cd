/-
# Which transactions are dangerous

`TransactionDomainService.isDangerous` warns about calls that could change the
wallet itself. A batch is unpacked first, and every call in it is rewritten for
display before it is looked at. This module computes the answer from the calls.
-/

import SafeWallet.Transaction.TokenService

namespace SafeWallet

namespace TransactionService

variable (services : Services)

/-- `isMultiSend(_:)`. -/
def isMultiSend (tx : Transaction) : Bool :=
  tx.type = .batched ∧ tx.operation = some .delegateCall ∧ tx.data.isSome ∧
    tx.recipient.any (MultiSend.isMultiSend services.metadata.multiSend)

/-- The calls of a batch, or nothing when the transaction is not a batch that
can be unpacked. -/
def batchArguments (tx : Transaction) : Trapping (Option (List MultiSendTransaction)) :=
  match tx.recipient, tx.data with
  | some recipient, some data =>
    if isMultiSend services tx then
      MultiSend.decodeMultiSendArguments services.kit services.metadata.multiSendContractAddress
        services.metadata.multiSend recipient data
    else return none
  | _, _ => return none

/-- `WalletOperation(rawValue: operation.rawValue)`. -/
def walletOperation : MultiSendOperation → WalletOperation
  | .call => .call
  | .delegateCall => .delegateCall

/-- `subTransaction(from:in:)`. -/
def subTransaction (store : Store) (multiSend : MultiSendTransaction) (walletID : WalletID)
    (now : Date) : Trapping (Accounts × Transaction) := do
  let formattedRecipient ← Trapping.unwrap (services.kit.formatted multiSend.toAddress.value)
  let result := { Transaction.new (store.nextTransactionID services) .transfer
      ⟨Token.Ether.id, walletID⟩ now with
    recipient := some formattedRecipient
    data := some multiSend.data
    operation := some (walletOperation multiSend.operation)
    amount := some (TokenAmount.ether multiSend.value) }
  TokenService.enhanceWithERC20Data services store result formattedRecipient multiSend.data now

/-- The sub-transactions of `batchedTransactions(from:walletID:)`, which take
their dates and status from the batch. -/
def subTransactions (batch : Transaction) (walletID : WalletID) (now : Date) :
    List MultiSendTransaction → Store → Trapping (Accounts × List Transaction)
  | [], store => return (store.accounts, [])
  | multiSend :: rest, store => do
    let (accounts, tx) ← subTransaction services store multiSend walletID now
    let tx := { tx with
      createdDate := batch.createdDate
      updatedDate := batch.updatedDate
      rejectedDate := batch.rejectedDate
      processedDate := batch.processedDate
      submittedDate := batch.submittedDate
      status := batch.status }
    let (accounts, txs) ← subTransactions batch walletID now rest { store with accounts := accounts }
    return (accounts, tx :: txs)

/-- `batchedTransactions(from:walletID:)`. -/
def batchedTransactions (store : Store) (tx : Transaction) (walletID : WalletID) (now : Date) :
    Trapping (Accounts × Option (List Transaction)) := do
  match ← batchArguments services tx with
  | none => return (store.accounts, none)
  | some arguments =>
    let (accounts, txs) ← subTransactions services tx walletID now arguments store
    return (accounts, some txs)

/-- `isDangerous(_:)`, with the accounts that were opened on the way. -/
def isDangerous (store : Store) (transactionID : TransactionID) (now : Date) :
    Trapping (Accounts × Bool) :=
  match store.transactions.find transactionID with
  | none => return (store.accounts, false)
  | some tx =>
    match store.wallets.find tx.accountID.walletID with
    | none => return (store.accounts, false)
    | some wallet =>
      match wallet.address with
      | none => return (store.accounts, false)
      | some walletAddress => do
        let (accounts, subtransactions) ← batchedTransactions services store tx wallet.id now
        match subtransactions with
        | some subtransactions =>
          if subtransactions.all fun sub => ¬ sub.isDangerous walletAddress then
            return (accounts, false)
          else return (accounts, tx.isDangerous walletAddress)
        | none => return (accounts, tx.isDangerous walletAddress)

/-! ## Calls of a batch -/

section Calls

variable (store : Store) (call : MultiSendTransaction)

/-- The address a call is shown with: for a token transfer the beneficiary. -/
def shown : Address :=
  if ERC20.IsTransfer services.kit call.data then (ERC20.transferArguments services.kit call.data).1
  else services.kit.checksummed call.toAddress.data

/-- A call can be shown unless its data is a transfer that breaks off or the
token's contract gives answers that cannot be read. -/
def Showable : Prop :=
  ¬ ERC20.IsTruncatedTransfer services.kit call.data ∧
    (ERC20.IsTransfer services.kit call.data →
      TokenService.Readable services store (services.kit.checksummed call.toAddress.data))

/-- What the check sees in a call. -/
def looksDangerous (walletAddress : Address) : Prop :=
  call.operation = .delegateCall ∨ (shown services call = walletAddress ∧ call.data ≠ [])

instance (walletAddress : Address) : Decidable (looksDangerous services call walletAddress) :=
  inferInstanceAs (Decidable (_ ∨ _))

variable {services store call}

/-- The answer for one sub-transaction. -/
theorem subTransaction_spec {walletID : WalletID} {now : Date} {result : Accounts × Transaction}
    (hwf : call.toAddress.WellFormed)
    (h : subTransaction services store call walletID now = .ok result) (walletAddress : Address) :
    Showable services store call ∧
      (result.2.isDangerous walletAddress ↔ looksDangerous services call walletAddress) := by
  obtain ⟨formatted, hformatted, rfl, hwf', -⟩ := services.kit.formatted_of_wellFormed hwf
  have hoperation : (walletOperation call.operation ≠ .call) ↔ call.operation = .delegateCall := by
    cases call.operation <;> simp [walletOperation]
  simp only [subTransaction, hformatted, Trapping.unwrap_some, Trapping.ok_bind,
    TokenService.enhanceWithERC20Data, ERC20.decodedTransfer_eq] at h
  by_cases htruncated : ERC20.IsTruncatedTransfer services.kit call.data
  · simp [htruncated] at h
  by_cases htransfer : ERC20.IsTransfer services.kit call.data
  · simp only [htruncated, htransfer, ↓reduceIte, Trapping.ok_bind, Trapping.bind_eq_ok_iff] at h
    obtain ⟨⟨accounts, token⟩, htoken, h⟩ := h
    cases h
    refine ⟨⟨htruncated, fun _ => (TokenService.token_ok_iff hwf').mp ⟨_, _, htoken⟩⟩, ?_⟩
    simp [Transaction.isDangerous, Transaction.hasData, looksDangerous, shown, htransfer,
      hoperation]
  · simp only [htruncated, htransfer, ↓reduceIte, Trapping.ok_bind] at h
    cases h
    refine ⟨⟨htruncated, fun h => absurd h htransfer⟩, ?_⟩
    simp [Transaction.isDangerous, Transaction.hasData, looksDangerous, shown, htransfer,
      hoperation]

/-- Calls that can be shown are shown. -/
theorem subTransaction_ok (hwf : call.toAddress.WellFormed) (hshow : Showable services store call)
    (walletID : WalletID) (now : Date) :
    ∃ result, subTransaction services store call walletID now = .ok result := by
  obtain ⟨formatted, hformatted, rfl, hwf', -⟩ := services.kit.formatted_of_wellFormed hwf
  simp only [subTransaction, hformatted, Trapping.unwrap_some, Trapping.ok_bind,
    TokenService.enhanceWithERC20Data, ERC20.decodedTransfer_eq, hshow.1, ↓reduceIte]
  by_cases htransfer : ERC20.IsTransfer services.kit call.data
  · obtain ⟨accounts, token, htoken⟩ := (TokenService.token_ok_iff hwf').mpr (hshow.2 htransfer)
    simp [htransfer, htoken]
  · simp [htransfer]

/-- Whether a call can be shown depends on the token list alone. -/
theorem showable_congr {store' : Store} (h : store'.tokenListItems = store.tokenListItems) :
    Showable services store' call ↔ Showable services store call := by
  simp only [Showable, TokenService.Readable, Store.token, h]

end Calls

section Answer

variable {services} {store : Store} {now : Date}

/-- All calls of a batch are unpacked when and only when each can be shown. -/
theorem subTransactions_spec {batch : Transaction} {walletID : WalletID}
    {calls : List MultiSendTransaction} (hwf : ∀ call ∈ calls, call.toAddress.WellFormed)
    {result : Accounts × List Transaction}
    (h : subTransactions services batch walletID now calls store = .ok result)
    (walletAddress : Address) :
    (∀ call ∈ calls, Showable services store call) ∧
      ((∃ sub ∈ result.2, sub.isDangerous walletAddress) ↔
        ∃ call ∈ calls, looksDangerous services call walletAddress) := by
  induction calls generalizing store result with
  | nil =>
      cases h
      simp
  | cons call rest ih =>
      simp only [subTransactions, Trapping.bind_eq_ok_iff] at h
      obtain ⟨⟨accounts, tx⟩, htx, ⟨accounts', txs⟩, htxs, h⟩ := h
      cases h
      obtain ⟨hshow, hfirst⟩ := subTransaction_spec (hwf call List.mem_cons_self) htx walletAddress
      -- Opening accounts does not change which tokens can be read.
      obtain ⟨hshows, hrest⟩ := ih (fun c hc => hwf c (List.mem_cons_of_mem _ hc)) htxs
      refine ⟨?_, ?_⟩
      · intro c hc
        rcases List.mem_cons.mp hc with rfl | hc
        · exact hshow
        · exact hshows c hc
      · simp only [List.exists_mem_cons_iff]
        exact or_congr hfirst hrest

theorem subTransactions_ok (batch : Transaction) (walletID : WalletID) (now : Date)
    (calls : List MultiSendTransaction) (store : Store)
    (hwf : ∀ call ∈ calls, call.toAddress.WellFormed)
    (hshow : ∀ call ∈ calls, Showable services store call) :
    ∃ result, subTransactions services batch walletID now calls store = .ok result := by
  induction calls generalizing store with
  | nil => exact ⟨_, rfl⟩
  | cons call rest ih =>
      obtain ⟨⟨accounts, tx⟩, htx⟩ := subTransaction_ok (hwf call List.mem_cons_self)
        (hshow call List.mem_cons_self) walletID now
      obtain ⟨⟨accounts', txs⟩, htxs⟩ := ih { store with accounts := accounts }
        (fun c hc => hwf c (List.mem_cons_of_mem _ hc))
        (fun c hc => hshow c (List.mem_cons_of_mem _ hc))
      exact ⟨_, by simp [subTransactions, htx, htxs]; rfl⟩

theorem batchArguments_wellFormed {tx : Transaction} {calls : List MultiSendTransaction}
    (h : batchArguments services tx = .ok (some calls)) :
    ∀ call ∈ calls, call.toAddress.WellFormed := by
  unfold batchArguments at h
  split at h
  · split at h
    · exact MultiSend.decodeMultiSendArguments_wellFormed h
    · cases h
  · cases h

/-- A batch is a `delegateCall`. -/
theorem operation_of_batchArguments {tx : Transaction} {calls : List MultiSendTransaction}
    (h : batchArguments services tx = .ok (some calls)) : tx.operation = some .delegateCall := by
  unfold batchArguments at h
  split at h
  · split at h
    · rename_i hmulti
      simp only [isMultiSend, decide_eq_true_eq] at hmulti
      exact hmulti.2.1
    · cases h
  · cases h

variable {tx : Transaction} {wallet : Wallet} {walletAddress : Address}

/-- A transaction that is no batch is judged by its own fields. -/
theorem isDangerous_of_not_batch (htx : store.transactions.find tx.id = some tx)
    (hwallet : store.wallets.find tx.accountID.walletID = some wallet)
    (haddress : wallet.address = some walletAddress)
    (hbatch : batchArguments services tx = .ok none) :
    isDangerous services store tx.id now =
      .ok (store.accounts, tx.isDangerous walletAddress) := by
  simp [isDangerous, htx, hwallet, haddress, batchedTransactions, hbatch]

/-- An unreadable batch stops the program. -/
theorem isDangerous_of_error {trap : Trap} (htx : store.transactions.find tx.id = some tx)
    (hwallet : store.wallets.find tx.accountID.walletID = some wallet)
    (haddress : wallet.address = some walletAddress)
    (hbatch : batchArguments services tx = .error trap) :
    isDangerous services store tx.id now = .error trap := by
  simp [isDangerous, htx, hwallet, haddress, batchedTransactions, hbatch]

/-- A batch is judged by its calls, if all of them can be shown. -/
theorem isDangerous_batch_iff (htx : store.transactions.find tx.id = some tx)
    (hwallet : store.wallets.find tx.accountID.walletID = some wallet)
    (haddress : wallet.address = some walletAddress) {calls : List MultiSendTransaction}
    (hbatch : batchArguments services tx = .ok (some calls)) (answer : Bool) :
    (∃ accounts, isDangerous services store tx.id now = .ok (accounts, answer)) ↔
      (∀ call ∈ calls, Showable services store call) ∧
        (answer = true ↔ ∃ call ∈ calls, looksDangerous services call walletAddress) := by
  have hwf := batchArguments_wellFormed hbatch
  have hself : tx.isDangerous walletAddress = true := by
    simp [Transaction.isDangerous, operation_of_batchArguments hbatch]
  -- Written as a function of the unpacked sub-transactions.
  have hanswer : isDangerous services store tx.id now =
      (subTransactions services tx wallet.id now calls store).map fun result =>
        (result.1, decide (∃ sub ∈ result.2, sub.isDangerous walletAddress)) := by
    simp only [isDangerous, htx, hwallet, haddress, batchedTransactions, hbatch, Trapping.ok_bind]
    cases subTransactions services tx wallet.id now calls store with
    | error trap => rfl
    | ok result =>
        simp only [Trapping.ok_bind, Trapping.pure_eq_ok, Except.map]
        by_cases hall : ∃ sub ∈ result.2, sub.isDangerous walletAddress
        · rw [if_neg (by simpa using hall), hself, decide_eq_true hall]
        · rw [if_pos (by simpa using hall), decide_eq_false hall]
  rw [hanswer]
  constructor
  · rintro ⟨accounts, h⟩
    cases hsub : subTransactions services tx wallet.id now calls store with
    | error trap => simp [hsub, Except.map] at h
    | ok result =>
        obtain ⟨hshow, hdanger⟩ := subTransactions_spec hwf hsub walletAddress
        simp only [hsub, Except.map, Except.ok.injEq, Prod.mk.injEq] at h
        exact ⟨hshow, by rw [← h.2, decide_eq_true_eq, hdanger]⟩
  · rintro ⟨hshow, h⟩
    obtain ⟨result, hsub⟩ := subTransactions_ok tx wallet.id now calls store hwf hshow
    obtain ⟨-, hdanger⟩ := subTransactions_spec hwf hsub walletAddress
    refine ⟨result.1, ?_⟩
    rw [hsub]
    simp only [Except.map, Except.ok.injEq, Prod.mk.injEq, true_and]
    rw [Bool.eq_iff_iff, decide_eq_true_eq, hdanger, h]

/-- The answer does not depend on the accounts. -/
theorem isDangerous_accounts (store : Store) (accounts : Accounts) (id : TransactionID)
    (answer : Bool) :
    (∃ accounts', isDangerous services { store with accounts := accounts } id now =
      .ok (accounts', answer)) ↔
      ∃ accounts', isDangerous services store id now = .ok (accounts', answer) := by
  cases htx : store.transactions.find id with
  | none => simp [isDangerous, htx]
  | some tx =>
      obtain rfl : tx.id = id := (Table.mem_of_find htx).2
      cases hwallet : store.wallets.find tx.accountID.walletID with
      | none => simp [isDangerous, htx, hwallet]
      | some wallet =>
          cases haddress : wallet.address with
          | none => simp [isDangerous, htx, hwallet, haddress]
          | some walletAddress =>
              cases hbatch : batchArguments services tx with
              | error trap => simp [isDangerous, htx, hwallet, haddress, batchedTransactions, hbatch]
              | ok calls =>
                  cases calls with
                  | none => simp [isDangerous, htx, hwallet, haddress, batchedTransactions, hbatch]
                  | some calls =>
                      rw [isDangerous_batch_iff htx hwallet haddress hbatch]
                      have htx' : { store with accounts := accounts }.transactions.find tx.id =
                          some tx := htx
                      exact isDangerous_batch_iff htx' hwallet haddress hbatch answer

/-- A batch whose calls can be unpacked and look harmless. -/
theorem exists_batchedTransactions_iff {walletID : WalletID} :
    (∃ accounts subs, batchedTransactions services store tx walletID now =
        .ok (accounts, some subs) ∧ ∀ sub ∈ subs, sub.isDangerous walletAddress = false) ↔
      ∃ calls, batchArguments services tx = .ok (some calls) ∧
        ∀ call ∈ calls, Showable services store call ∧
          ¬ looksDangerous services call walletAddress := by
  constructor
  · rintro ⟨accounts, subs, h, hsafe⟩
    simp only [batchedTransactions, Trapping.bind_eq_ok_iff] at h
    obtain ⟨calls, hcalls, h⟩ := h
    cases calls with
    | none => cases h
    | some calls =>
        simp only [Trapping.bind_eq_ok_iff] at h
        obtain ⟨result, hresult, h⟩ := h
        cases h
        obtain ⟨hshow, hdanger⟩ :=
          subTransactions_spec (batchArguments_wellFormed hcalls) hresult walletAddress
        refine ⟨calls, hcalls, fun call hcall => ⟨hshow call hcall, fun hlooks => ?_⟩⟩
        obtain ⟨sub, hsub, hfound⟩ := hdanger.mpr ⟨call, hcall, hlooks⟩
        rw [hsafe sub hsub] at hfound
        cases hfound
  · rintro ⟨calls, hcalls, hsafe⟩
    have hwf := batchArguments_wellFormed hcalls
    obtain ⟨⟨accounts, subs⟩, hresult⟩ :=
      subTransactions_ok tx walletID now calls store hwf fun call hcall => (hsafe call hcall).1
    obtain ⟨-, hdanger⟩ := subTransactions_spec hwf hresult walletAddress
    refine ⟨accounts, subs, by simp [batchedTransactions, hcalls, hresult], fun sub hsub => ?_⟩
    by_contra hfound
    obtain ⟨call, hcall, hlooks⟩ := hdanger.mp ⟨sub, hsub, by simpa using hfound⟩
    exact (hsafe call hcall).2 hlooks

end Answer

end TransactionService

end SafeWallet
