/-
# Balances that the synchronisation writes

The synchronisation asks for the balances of all wallets in the tokens that the user sees. It
reads a wallet for its address, waits for the answer, and puts it into the account that is
stored by then: the balance may be that of an address the wallet no longer has. A deployment
that waits for its fee reads the same account.
-/

import SafeWallet.Tokens.TokenList
import SafeWallet.Wallet.WalletStates

namespace SafeWallet

/-- The states in which the fee of a deployment is due. -/
def WalletState.isFunding (state : WalletState) : Bool :=
  match state with
  | .waitingForFirstDeposit | .notEnoughFunds | .creationStarted => true
  | _ => false

/-- `paymentTokens()`, as a set. -/
def TokenListItemRepository.paymentTokens (items : TokenListItems) : List TokenListItem :=
  items.rows.filter TokenListItem.canPayTransactionFee

namespace AccountUpdateDomainService

/-- `whitelistedTokenIDs()`. -/
def whitelistedTokenIDs : Call (List String) :=
  Call.read fun store => TokenListItemRepository.displayed store.tokenListItems

/-- `paymentTokenIDs()`. -/
def paymentTokenIDs : Call (List String) := Call.read fun store =>
  (TokenListItemRepository.paymentTokens store.tokenListItems).map fun item => item.token.id

/-- A balance is recorded if a fee that is due is paid into the account. -/
def recorded (accountID : AccountID) (wallet : Wallet) (amount : ℕ) : Option Observation :=
  if wallet.state.isFunding ∧ wallet.feeAccountID = accountID then some (.balance wallet amount)
  else none

/-- `balance(of:)`, with the wallet that was read. -/
def balance (accountID : AccountID) : Call (Answer (Option (Wallet × ℕ))) := do
  match ← Call.findWallet accountID.walletID .elsewhere with
  | none => return .ok none
  | some wallet =>
    match wallet.address with
    | none => return .ok none
    | some address =>
      match ← Call.ask (fun outside => outside.deployment.balance ⟨accountID.tokenID⟩ address)
          fun answer => answer.toOption.bind (recorded accountID wallet) with
      | .error error => return .error error
      | .ok amount => return .ok (some (wallet, amount))

/-- What `updateAccountsBalances(_:)` does for one account. -/
def updateBalance (accountID : AccountID) : Call (Answer Unit) := do
  match ← balance accountID with
  | .error error => return .error error
  | .ok none => return .ok ()
  | .ok (some (wallet, amount)) =>
    match ← Call.read fun store => store.accounts.find accountID with
    | none => return .ok ()
    | some account =>
      Process.update (.crediting accountID wallet) fun app => app.modify fun store => { store with
        accounts := store.accounts.save { account with balance := some (amount : ℤ) } }
      return .ok ()

/-- `updateAccountsBalances(_:)`. An error ends the loop. -/
def updateBalances : List AccountID → Call (Answer Unit)
  | [] => return .ok ()
  | accountID :: rest => do
    match ← updateBalance accountID with
    | .error error => return .error error
    | .ok () => updateBalances rest

/-- An account without a balance is saved. -/
def saveAccount (accountID : AccountID) : Call Unit :=
  Call.write fun store => { store with accounts := store.accounts.save ⟨accountID, none⟩ }

/-- `findOrCreateAccount(tokenID:walletID:)`. -/
def findOrCreateAccount (tokenID : String) (walletID : WalletID) : Call Unit := do
  let accountID ← Process.lift (AccountID.make tokenID walletID)
  match ← Call.read fun store => store.accounts.find accountID with
  | none => saveAccount accountID
  | some _ => return

/-- `updateAccountBalance(token:)`. -/
def updateAccountBalance (token : Token) : Call (Answer Unit) := do
  let walletIDs ← Call.read fun store => (store.portfolio.map Portfolio.wallets).getD []
  Process.each walletIDs (findOrCreateAccount token.id)
  updateBalances (walletIDs.map fun walletID => ⟨token.id, walletID⟩)

/-- The accounts that a wallet lacks are created. -/
def createAccounts (tokenIDs : List String) (walletID : WalletID) : Call Unit := do
  match ← Call.findWallet walletID .elsewhere with
  | none => return
  | some _ =>
    let existingIDs ← Call.read fun store =>
      (store.accounts.rows.filter fun account => account.id.walletID = walletID).map fun account =>
        account.id.tokenID
    let newAccounts ← Process.lift
      ((tokenIDs.filter (· ∉ existingIDs)).mapM fun tokenID => AccountID.make tokenID walletID)
    Process.each newAccounts saveAccount

/-- `updateAccountsBalances()`. What is a set there is a list here, whose order does not matter. -/
def updateAccountsBalances : Call (Answer Unit) := do
  let whitelisted ← whitelistedTokenIDs
  let tokenIDs := (whitelisted ++ (← paymentTokenIDs)).dedup
  match ← Call.read fun store => store.portfolio.map Portfolio.wallets with
  | none => return .ok ()
  | some walletIDs =>
    Process.each walletIDs (createAccounts tokenIDs)
    let accountsToUpdate ← Call.read fun store => (store.accounts.rows.filter fun account =>
      (account.id.tokenID ∈ tokenIDs ∨ account.id.tokenID = Token.Ether.id) ∧
        account.id.walletID ∈ walletIDs).map Account.id
    updateBalances accountsToUpdate

end AccountUpdateDomainService

end SafeWallet
