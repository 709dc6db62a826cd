/-
# Edited transfer drafts

The screen that sends funds writes amount, token and recipient of its draft anew with
every edit. The call data is written only for tokens other than Ether, and nothing takes
it away again: a draft that was a token transfer before it became a transfer of Ether
still carries the call of the token, now addressed to the recipient.
-/

import SafeWallet.Tokens.TokenList
import SafeWallet.Transaction.Submission

namespace SafeWallet

/-- The arguments of `updateTransaction(_:amount:token:recipient:)`, and when it is called. -/
structure TransferEdit where
  amount : ℤ
  token : String
  recipient : String
  now : Date
  deriving DecidableEq, Repr

/-- What a transaction is on the chain: the called address, the Ether sent along and the
data. -/
def Transaction.onChain (tx : Transaction) : Address × ℤ × Option Data :=
  (tx.ethTo, tx.ethValue, tx.data)

namespace WalletApplication

variable (services : Services) (id : TransactionID)

/-- `updateTransaction(_:amount:token:recipient:)`. -/
def updateTransaction (store : Store) (edit : TransferEdit) : Trapping Store := do
  let transaction ← Trapping.unwrap (store.transactions.find id)
  let tokenItem ← Trapping.unwrap (TokenListItemRepository.find store.tokenListItems edit.token)
  let transaction :=
    { transaction with
      amount := some ⟨edit.amount, tokenItem.token⟩
      recipient := some ⟨edit.recipient⟩
      updatedDate := some edit.now }
  if tokenItem.token ≠ Token.Ether then
    let data ← ERC20.transfer services.kit ⟨edit.recipient⟩ edit.amount
    let transaction := { transaction with data := some data }
    return { store with transactions := store.transactions.store transaction }
  else return { store with transactions := store.transactions.store transaction }

end WalletApplication

namespace TransferEdit

variable (edit : TransferEdit)

/-- The call `transfer(recipient, amount)`: a selector and two words. -/
def transferCall (kit : EthereumKit) : Data :=
  ContractProxy.method kit "transfer(address,uint256)" ++
    SubmitTransactionRequest.word (Address.toUInt ⟨edit.recipient⟩) ++
    SubmitTransactionRequest.word edit.amount.toNat

/-- The transfer that the user has asked for. -/
def onChain (kit : EthereumKit) : Address × ℤ × Option Data :=
  if edit.token = Token.Ether.id then (⟨edit.recipient⟩, edit.amount, none)
  else (⟨edit.token⟩, 0, some (edit.transferCall kit))

end TransferEdit

namespace WalletApplication

variable {services : Services} {id : TransactionID} {store : Store} {tx : Transaction}
  {edit : TransferEdit}

/-- A new draft. -/
def editDraft : Transaction := .new "tx" .transfer ⟨Token.Ether.id, "wallet"⟩ 0

end WalletApplication

end SafeWallet
