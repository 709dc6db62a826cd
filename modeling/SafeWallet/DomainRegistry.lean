/-
# Repositories and services

The program reaches its repositories and the outside world through one registry.
The repositories are tables in a `Store`; the Ethereum node, the contract
metadata shipped with the program and the generator of identifiers are `Services`.
A query to the node may throw, which is `none`; its answers are fixed during one
call of the program.
-/

import Mathlib.Algebra.Order.BigOperators.Group.List
import SafeWallet.Base.Table
import SafeWallet.Ethereum.MultiSend
import SafeWallet.Transaction.Transaction

namespace SafeWallet

/-- `MasterCopyMetadata`: the EIP-712 type hashes of a contract version. -/
structure MasterCopyMetadata where
  address : Address
  version : String
  txTypeHash : Data
  domainSeparatorHash : Data
  deriving DecidableEq, Repr

/-- `SafeContractMetadata`, as far as it is used. -/
structure SafeContractMetadata where
  multiSendContractAddress : Address
  masterCopy : List MasterCopyMetadata
  multiSend : List MultiSendMetadata
  deriving DecidableEq, Repr

/-- Everything outside the program's own data. -/
structure Services where
  kit : EthereumKit
  metadata : SafeContractMetadata
  eth_call : Address → Data → Option Data
  eth_getBalance : Address → Option ℤ
  eth_getStorageAt : Address → ℕ → Option Data := fun _ _ => none
  /-- Identifiers are random; the generator never repeats a known one. -/
  nextID : List String → String
  nextID_not_mem : ∀ known, nextID known ∉ known

/-- Services whose node never answers, with identifiers made longer than all
known ones. -/
def Services.offline (kit : EthereumKit) (metadata : SafeContractMetadata) : Services where
  kit := kit
  metadata := metadata
  eth_call _ _ := none
  eth_getBalance _ := none
  nextID known := String.ofList (List.replicate ((known.map String.length).sum + 1) 'A')
  nextID_not_mem known h := by
    have hle := List.single_le_sum (fun _ _ => Nat.zero_le _) _
      (List.mem_map_of_mem (f := String.length) h)
    simp at hle

/-- `Account`. -/
structure Account where
  id : AccountID
  balance : Option ℤ
  deriving DecidableEq, Repr

/-- `TokenListItem.TokenListItemStatus`. -/
inductive TokenListItemStatus
  | regular
  | whitelisted
  | blacklisted
  deriving DecidableEq, Repr

/-- `TokenListItem`. -/
structure TokenListItem where
  token : Token
  status : TokenListItemStatus
  canPayTransactionFee : Bool
  sortingId : Option ℤ
  deriving DecidableEq, Repr

/-- `Portfolio`. -/
structure Portfolio where
  wallets : List WalletID
  selectedWallet : Option WalletID
  deriving DecidableEq, Repr

/-- `ExternallyOwnedAccount`: a private key in the keychain. -/
structure ExternallyOwnedAccount where
  address : Address
  privateKey : Data
  deriving DecidableEq, Repr

/-- `AddressBookEntryType`. -/
inductive AddressBookEntryType
  | regular
  | wallet
  deriving DecidableEq, Repr

/-- `AddressBookEntry`. -/
structure AddressBookEntry where
  id : String
  name : String
  address : String
  type : AddressBookEntryType
  deriving DecidableEq, Repr

/-- The token list, under the identifiers of the tokens. -/
abbrev TokenListItems := Table fun item : TokenListItem => item.token.id

/-- The account repository. -/
abbrev Accounts := Table Account.id

/-- The transaction repository. -/
abbrev Transactions := Table Transaction.id

/-- The repositories. The portfolio repository holds at most one portfolio, and
a transaction monitor is only its transaction's identifier. -/
structure Store where
  wallets : Table Wallet.id
  transactions : Transactions
  accounts : Accounts
  tokenListItems : TokenListItems
  portfolio : Option Portfolio
  externallyOwnedAccounts : Table ExternallyOwnedAccount.address
  addressBook : Table AddressBookEntry.id
  transactionMonitors : List TransactionID

/-- Repositories with wallets and transactions only. -/
def Store.ofWallets (wallets : Table Wallet.id) (transactions : Transactions) : Store where
  wallets := wallets
  transactions := transactions
  accounts := Table.empty
  tokenListItems := Table.empty
  portfolio := none
  externallyOwnedAccounts := Table.empty
  addressBook := Table.empty
  transactionMonitors := []

namespace Transactions

/-- What is read back after a row was written: empty blobs come back as `nil`. -/
def persisted (tx : Transaction) : Transaction :=
  { tx with data := tx.data.filter (· ≠ []), hash := tx.hash.filter (· ≠ []) }

@[simp]
theorem id_persisted (tx : Transaction) : (persisted tx).id = tx.id := rfl

/-- `TransactionRepository.save(_:)`. -/
def store (transactions : Transactions) (tx : Transaction) : Transactions :=
  transactions.save (persisted tx)

/-- `find(hash:)`: the oldest row. Rows are kept as they are read back, where an empty blob is no
hash; that the database finds the row of an empty blob by an empty hash is left out. -/
def findHash (transactions : Transactions) (hash : Data) : Option Transaction :=
  transactions.rows.find? fun tx => hash ≠ [] ∧ tx.hash = some hash

/-- The order of `datetime(created_date)`, in whole seconds and `NULL` first. -/
def createdSecond (tx : Transaction) : ℕ :=
  match tx.createdDate with
  | none => 0
  | some date => date / 1000 + 1

/-- The newest of some transactions, the first one among equals. -/
def newest : List Transaction → Option Transaction
  | [] => none
  | tx :: rest =>
    match newest rest with
    | none => some tx
    | some other => if createdSecond tx < createdSecond other then some other else some tx

/-- `find(hash:status:)`. -/
def findHashStatus (transactions : Transactions) (hash : Data) (status : TransactionStatus) :
    Option Transaction :=
  newest (transactions.rows.filter fun tx => hash ≠ [] ∧ tx.hash = some hash ∧ tx.status = status)

/-- `find(type:wallet:)`: the oldest row. -/
def findType (transactions : Transactions) (type : TransactionType) (wallet : WalletID) :
    Option Transaction :=
  transactions.rows.find? fun tx => tx.type = type ∧ tx.accountID.walletID = wallet

/-- `find(wallet:)`. -/
def findWallet (transactions : Transactions) (wallet : WalletID) : List Transaction :=
  transactions.rows.filter fun tx => tx.accountID.walletID = wallet

theorem mem_of_newest {rows : List Transaction} {tx : Transaction} (h : newest rows = some tx) :
    tx ∈ rows := by
  induction rows generalizing tx with
  | nil => cases h
  | cons first rest ih =>
      unfold newest at h
      split at h
      · cases h
        exact List.mem_cons_self
      · rename_i other hother
        split at h
        · cases h
          exact List.mem_cons_of_mem _ (ih hother)
        · cases h
          exact List.mem_cons_self

variable {transactions : Transactions} {tx : Transaction} {hash : Data}

theorem findHash_spec (h : transactions.findHash hash = some tx) :
    tx ∈ transactions.rows ∧ hash ≠ [] ∧ tx.hash = some hash :=
  ⟨List.mem_of_find?_eq_some h, by simpa using List.find?_some h⟩

theorem findHashStatus_spec {status : TransactionStatus}
    (h : transactions.findHashStatus hash status = some tx) :
    tx ∈ transactions.rows ∧ hash ≠ [] ∧ tx.hash = some hash ∧ tx.status = status := by
  simpa using mem_of_newest h

theorem findType_spec {type : TransactionType} {wallet : WalletID}
    (h : transactions.findType type wallet = some tx) :
    tx ∈ transactions.rows ∧ tx.type = type ∧ tx.accountID.walletID = wallet :=
  ⟨List.mem_of_find?_eq_some h, by simpa using List.find?_some h⟩

end Transactions

namespace Store

/-- `WalletRepository.find(address:)`. The texts are compared. -/
def findWallet (store : Store) (address : Address) : Option Wallet :=
  store.wallets.rows.find? fun wallet => wallet.address = some address

/-- `selectedWallet()`. -/
def selectedWallet (store : Store) : Option Wallet :=
  store.portfolio.bind Portfolio.selectedWallet >>= store.wallets.find

/-- `WalletDomainService.token(id:)`. -/
def token (store : Store) (id : String) : Option Token :=
  if id = Token.Ether.id then some Token.Ether
  else (store.tokenListItems.find id).map TokenListItem.token

/-- `TransactionRepository.nextID()`. -/
def nextTransactionID (services : Services) (store : Store) : TransactionID :=
  services.nextID (store.transactions.rows.map Transaction.id)

/-- The identifier of a new transaction is not in use. -/
theorem find_nextTransactionID (services : Services) (store : Store) :
    store.transactions.find (store.nextTransactionID services) = none := by
  rw [Table.find_eq_none_iff]
  intro tx hmem heq
  have hid : tx.id ∈ store.transactions.rows.map Transaction.id := List.mem_map_of_mem hmem
  rw [heq] at hid
  exact services.nextID_not_mem _ hid

end Store

end SafeWallet
