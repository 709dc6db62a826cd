/-
# Tokens of unknown contracts

When a call is recognised as a token transfer, the transaction is rewritten for
display: the recipient becomes the beneficiary and the amount the number of
tokens. The token is looked up by the text of the contract's address; for an
unknown contract its name, code and decimals are read from the chain, and on the
way an account is opened for it in every wallet. Only accounts are written, which
the types below record: the functions return the account repository alone.
-/

import SafeWallet.DomainRegistry

namespace SafeWallet

open ContractProxy

namespace TokenService

variable (services : Services) (store : Store)

/-- `balance(of:)`: `none` when the node fails, and no balance for a wallet
without an address. -/
def balance (accountID : AccountID) : Trapping (Option (Option ℤ)) :=
  match (store.wallets.find accountID.walletID).bind Wallet.address with
  | none => return some none
  | some address =>
    if accountID.tokenID = Token.Ether.id then
      return (services.eth_getBalance address).map some
    else do
      let contract ← Address.make accountID.tokenID
      return (services.eth_call contract
        (invocation services.kit "balanceOf(address)" [encodeAddress address])).map
          fun value => some (decodeUInt value : ℤ)

/-- `updateAccountsBalances(_:)`. The first failing query ends the loop. -/
def updateAccountsBalances : List AccountID → Accounts → Trapping Accounts
  | [], accounts => return accounts
  | accountID :: rest, accounts => do
    match ← balance services store accountID with
    | none => return accounts
    | some none => updateAccountsBalances rest accounts
    | some (some value) =>
      match accounts.find accountID with
      | none => updateAccountsBalances rest accounts
      | some account =>
        updateAccountsBalances rest (accounts.save { account with balance := some value })

/-- `findOrCreateAccount(tokenID:walletID:)` for a list of wallets. -/
def findOrCreateAccounts (tokenID : String) :
    List WalletID → Accounts → Trapping (List AccountID × Accounts)
  | [], accounts => return ([], accounts)
  | walletID :: rest, accounts => do
    let accountID ← AccountID.make tokenID walletID
    let accounts := if accounts.find accountID = none then accounts.save ⟨accountID, none⟩
      else accounts
    let (accountIDs, accounts) ← findOrCreateAccounts tokenID rest accounts
    return (accountID :: accountIDs, accounts)

/-- `updateAccountBalance(token:)`; the callers ignore what it throws. -/
def updateAccountBalance (token : Token) : Trapping Accounts :=
  match store.portfolio.map Portfolio.wallets with
  | none | some [] => return store.accounts
  | some walletIDs => do
    let (accountIDs, accounts) ← findOrCreateAccounts token.id walletIDs store.accounts
    updateAccountsBalances services store accountIDs accounts

/-- `name()` and `symbol()` of an ERC-20 contract. -/
def text (contract : Address) (selector : String) : Trapping (Option String) :=
  match services.eth_call contract (invocation services.kit selector []) with
  | none => return none
  | some value => decodeString value

/-- `decimals()`. -/
def decimals (contract : Address) : Trapping (Option ℕ) :=
  match services.eth_call contract (invocation services.kit "decimals()" []) with
  | none => return none
  | some value => do return some (← Trapping.toInt (decodeUInt value))

/-- What is shown for a contract that is not in the token list. -/
def unlistedToken (address : Address) : Trapping Token := do
  let unreadable : Token := ⟨"---", address.value, 18, address, ""⟩
  match ← text services address "name()" with
  | none => return unreadable
  | some name =>
    match ← text services address "symbol()" with
    | none => return unreadable
    | some code =>
      match ← decimals services address with
      | none => return unreadable
      | some decimals => return ⟨code, name, Int64.ofNat decimals, address, ""⟩

/-- `token(for:)`. -/
def token (address : Address) : Trapping (Accounts × Token) :=
  match store.token address.value with
  | some token => return (store.accounts, token)
  | none => do
    let token ← unlistedToken services address
    let accounts ← updateAccountBalance services store token
    return (accounts, token)

/-- `enhanceWithERC20Data(transaction:to:data:)`. -/
def enhanceWithERC20Data (tx : Transaction) (address : Address) (data : Data) (now : Date) :
    Trapping (Accounts × Transaction) := do
  match ← ERC20.decodedTransfer services.kit data with
  | none => return (store.accounts, tx)
  | some (recipient, amount) =>
    let (accounts, token) ← token services store address
    return (accounts, { tx with
      recipient := some recipient, amount := some ⟨amount, token⟩, updatedDate := some now })

/-! ## When a token can be shown -/

/-- The token list knows the contract, or the contract's answers can be read. -/
def Readable (address : Address) : Prop :=
  (store.token address.value).isSome ∨ ∃ token, unlistedToken services address = .ok token

variable {services store}

/-- A token read from its contract has the contract's address. -/
theorem address_of_unlistedToken {address : Address} {token : Token}
    (h : unlistedToken services address = .ok token) : token.address = address := by
  simp only [unlistedToken, Trapping.bind_eq_ok_iff] at h
  obtain ⟨name, -, h⟩ := h
  cases name with
  | none => cases h; rfl
  | some name =>
      simp only [Trapping.bind_eq_ok_iff] at h
      obtain ⟨code, -, h⟩ := h
      cases code with
      | none => cases h; rfl
      | some code =>
          simp only [Trapping.bind_eq_ok_iff] at h
          obtain ⟨decimals, -, h⟩ := h
          cases decimals <;> (cases h; rfl)

/-- Opening accounts for a well-formed contract address never traps. -/
theorem findOrCreateAccounts_ok {tokenID : String} (hne : tokenID ≠ "") (walletIDs : List WalletID)
    (accounts : Accounts) : ∃ accounts',
      findOrCreateAccounts tokenID walletIDs accounts =
        .ok (walletIDs.map (AccountID.mk tokenID), accounts') := by
  induction walletIDs generalizing accounts with
  | nil => exact ⟨accounts, rfl⟩
  | cons walletID rest ih =>
      obtain ⟨accounts', hrest⟩ := ih (if accounts.find ⟨tokenID, walletID⟩ = none then
        accounts.save ⟨⟨tokenID, walletID⟩, none⟩ else accounts)
      refine ⟨accounts', ?_⟩
      simp [findOrCreateAccounts, AccountID.make, hne, hrest]

/-- Neither does reading their balances. -/
theorem updateAccountsBalances_ok {address : Address} (hwf : address.WellFormed)
    (accountIDs : List AccountID) (htoken : ∀ id ∈ accountIDs, id.tokenID = address.value)
    (accounts : Accounts) : ∃ accounts',
      updateAccountsBalances services store accountIDs accounts = .ok accounts' := by
  induction accountIDs generalizing accounts with
  | nil => exact ⟨accounts, rfl⟩
  | cons accountID rest ih =>
      have hrest := ih fun id hid => htoken id (List.mem_cons_of_mem _ hid)
      have hbalance : ∃ value, balance services store accountID = .ok value := by
        unfold balance
        split
        · exact ⟨_, rfl⟩
        · split
          · exact ⟨_, rfl⟩
          · rw [htoken accountID List.mem_cons_self, hwf.make]
            exact ⟨_, rfl⟩
      obtain ⟨value, hvalue⟩ := hbalance
      simp only [updateAccountsBalances, hvalue, Trapping.ok_bind]
      split
      · exact ⟨_, rfl⟩
      · exact hrest _
      · split
        · exact hrest _
        · exact hrest _

theorem updateAccountBalance_ok {token : Token} (hwf : token.address.WellFormed) :
    ∃ accounts, updateAccountBalance services store token = .ok accounts := by
  have hne : token.id ≠ "" := by
    intro heq
    have hlength := congrArg List.length hwf.1
    simp [show token.address.value = "" from heq] at hlength
  unfold updateAccountBalance
  split
  · exact ⟨_, rfl⟩
  · exact ⟨_, rfl⟩
  · rename_i walletIDs _ _
    obtain ⟨accounts, hcreate⟩ := findOrCreateAccounts_ok hne walletIDs store.accounts
    rw [hcreate, Trapping.ok_bind]
    apply updateAccountsBalances_ok hwf
    simp [Token.id]

/-- A readable token of a well-formed address is always delivered, and an
unreadable one always stops the program. -/
theorem token_ok_iff {address : Address} (hwf : address.WellFormed) :
    (∃ accounts tok, token services store address = .ok (accounts, tok)) ↔
      Readable services store address := by
  unfold token Readable
  cases hfound : store.token address.value with
  | some found => simp
  | none =>
      simp only [Option.isSome_none, Bool.false_eq_true, false_or, Trapping.bind_eq_ok_iff]
      constructor
      · rintro ⟨-, -, found, hfound, -⟩
        exact ⟨found, hfound⟩
      · rintro ⟨found, hfound⟩
        have hwf' : found.address.WellFormed := by rwa [address_of_unlistedToken hfound]
        obtain ⟨accounts, haccounts⟩ : ∃ accounts,
            updateAccountBalance services store found = .ok accounts :=
          updateAccountBalance_ok hwf'
        exact ⟨accounts, found, found, hfound, accounts, haccounts, rfl⟩

end TokenService

end SafeWallet
