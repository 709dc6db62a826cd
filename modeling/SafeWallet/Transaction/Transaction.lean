/-
# Transactions

A transaction is kept the way it is shown to the user: a recipient and an amount
of some token. The call that is made on the chain is computed from these: for a
token transfer the contract called is the token's. The status machine is the one
of `TransactionStatus.swift`; a transition it does not list stops the program.
-/

import SafeWallet.Ethereum.Token
import SafeWallet.Wallet.Wallet

namespace SafeWallet

/-- Identifiers are the texts of random UUIDs. -/
abbrev TransactionID := String

/-- A point in time, in milliseconds. -/
abbrev Date := ℕ

/-- `AccountID`. The source joins the two parts by a colon, which neither part
contains. -/
structure AccountID where
  tokenID : String
  walletID : WalletID
  deriving DecidableEq, Repr

/-- `AccountID(tokenID:walletID:)`. The wallet's part is a UUID and never
empty. -/
def AccountID.make (tokenID : String) (walletID : WalletID) : Trapping AccountID := do
  Trapping.require (tokenID ≠ "")
  return ⟨tokenID, walletID⟩

/-- `TransactionType`. -/
inductive TransactionType
  | transfer
  | walletRecovery
  | replaceRecoveryPhrase
  | replaceTwoFAWithAuthenticator
  | connectAuthenticator
  | disconnectAuthenticator
  | contractUpgrade
  | replaceTwoFAWithStatusKeycard
  | connectStatusKeycard
  | disconnectStatusKeycard
  | batched
  deriving DecidableEq, Repr

namespace TransactionType

/-- `isConnectTwoFA`. -/
def isConnectTwoFA (type : TransactionType) : Bool :=
  type = .connectStatusKeycard ∨ type = .connectAuthenticator

/-- `isReplaceOrDisconnectTwoFA`. -/
def isReplaceOrDisconnectTwoFA (type : TransactionType) : Bool :=
  type = .replaceTwoFAWithAuthenticator ∨ type = .replaceTwoFAWithStatusKeycard ∨
    type = .disconnectStatusKeycard ∨ type = .disconnectAuthenticator

end TransactionType

/-- `WalletOperation`. -/
inductive WalletOperation
  | call
  | delegateCall
  | create
  deriving DecidableEq, Repr

/-- `WalletOperation.rawValue`. -/
def WalletOperation.rawValue : WalletOperation → ℕ
  | .call => 0
  | .delegateCall => 1
  | .create => 2

/-- `TransactionStatus.Code`. -/
inductive TransactionStatus
  | draft
  | signing
  | pending
  | rejected
  | failed
  | success
  deriving DecidableEq, Repr

/-- `Signature`. -/
structure Signature where
  data : Data
  address : Address
  deriving DecidableEq, Repr

/-- `TransactionFeeEstimate`. -/
structure TransactionFeeEstimate where
  gas : ℤ
  dataGas : ℤ
  operationalGas : ℤ
  gasPrice : TokenAmount
  deriving DecidableEq, Repr

/-- `totalDisplayedToUser`. -/
def TransactionFeeEstimate.totalDisplayedToUser (estimate : TransactionFeeEstimate) : TokenAmount :=
  ⟨estimate.gasPrice.amount * (estimate.gas + estimate.dataGas + estimate.operationalGas),
    estimate.gasPrice.token⟩

/-- `Transaction`. The nonce is the number its decimal text denotes. -/
structure Transaction where
  id : TransactionID
  type : TransactionType
  accountID : AccountID
  status : TransactionStatus
  sender : Option Address
  recipient : Option Address
  amount : Option TokenAmount
  fee : Option TokenAmount
  signatures : List Signature
  createdDate : Option Date
  updatedDate : Option Date
  rejectedDate : Option Date
  submittedDate : Option Date
  processedDate : Option Date
  transactionHash : Option String
  hash : Option Data
  feeEstimate : Option TransactionFeeEstimate
  data : Option Data
  operation : Option WalletOperation
  nonce : Option ℤ
  deriving DecidableEq, Repr

namespace Transaction

/-- `Transaction(id:type:accountID:)`. -/
def new (id : TransactionID) (type : TransactionType) (accountID : AccountID) (now : Date) :
    Transaction where
  id := id
  type := type
  accountID := accountID
  status := .draft
  sender := none
  recipient := none
  amount := none
  fee := none
  signatures := []
  createdDate := some now
  updatedDate := some now
  rejectedDate := none
  submittedDate := none
  processedDate := none
  transactionHash := none
  hash := none
  feeEstimate := none
  data := none
  operation := none
  nonce := none

/-- A transaction of a Safe with itself, with all that the status machine asserts. -/
def toItself (id : TransactionID) (type : TransactionType) (walletID : WalletID) (safe : Address)
    (status : TransactionStatus) (transactionHash : String) : Transaction :=
  { new id type ⟨Token.Ether.id, walletID⟩ 0 with
    status := status
    sender := some safe
    recipient := some safe
    amount := some (.ether 0)
    fee := some (.ether 0)
    transactionHash := some transactionHash }

/-- `hasData`. -/
def hasData (tx : Transaction) : Bool := tx.data.getD [] ≠ []

/-- `isDangerous(walletAddress:)`. The addresses are compared as text. -/
def isDangerous (tx : Transaction) (walletAddress : Address) : Bool :=
  (tx.operation ≠ none ∧ tx.operation ≠ some .call) ∨
    (tx.recipient = some walletAddress ∧ tx.hasData)

/-! ## The call on the chain -/

/-- `isERC20Transfer`. -/
def isERC20Transfer (tx : Transaction) : Bool :=
  tx.amount.any fun amount => amount.token.id ≠ Token.Ether.id

/-- `ethTo`. -/
def ethTo (tx : Transaction) : Address :=
  (if tx.isERC20Transfer then tx.amount.map fun amount => amount.token.address
    else tx.recipient).getD Address.zero

/-- `ethValue`. -/
def ethValue (tx : Transaction) : ℤ :=
  (if tx.isERC20Transfer then some 0 else tx.amount.map TokenAmount.amount).getD 0

/-- The bytes sent along; `nil` and empty data are the same call. -/
def ethData (tx : Transaction) : Data := tx.data.getD []

/-! ## Status transitions -/

/-- `proceed()`. -/
def proceed (tx : Transaction) (now : Date) : Trapping Transaction :=
  match tx.status with
  | .draft => do
    Trapping.require tx.sender.isSome
    Trapping.require tx.recipient.isSome
    Trapping.require tx.amount.isSome
    Trapping.require tx.fee.isSome
    return { tx with status := .signing, updatedDate := some now }
  | .signing => do
    Trapping.require tx.transactionHash.isSome
    return { tx with status := .pending, submittedDate := some now, updatedDate := some now }
  | _ => .error .precondition

/-- `reject()`. -/
def reject (tx : Transaction) (now : Date) : Trapping Transaction :=
  match tx.status with
  | .signing => return { tx with
      status := .rejected, rejectedDate := some now, updatedDate := some now }
  | _ => .error .precondition

/-- `stepBack()`. Nothing but the status is taken back. -/
def stepBack (tx : Transaction) : Trapping Transaction :=
  match tx.status with
  | .signing => return { tx with status := .draft }
  | .pending => return { tx with status := .signing }
  | _ => .error .precondition

/-- `reset()`. -/
def reset (tx : Transaction) : Trapping Transaction :=
  match tx.status with
  | .rejected => return { tx with
      transactionHash := none, createdDate := none, updatedDate := none, rejectedDate := none,
      submittedDate := none, processedDate := none, signatures := [], status := .draft }
  | _ => .error .precondition

/-- `succeed()`. -/
def succeed (tx : Transaction) (now : Date) : Trapping Transaction :=
  match tx.status with
  | .pending => return { tx with
      status := .success, processedDate := some now, updatedDate := some now }
  | _ => .error .precondition

/-- `fail()`. -/
def fail (tx : Transaction) (now : Date) : Trapping Transaction :=
  match tx.status with
  | .pending => return { tx with
      status := .failed, processedDate := some now, updatedDate := some now }
  | _ => .error .precondition

/-! ## Signatures -/

/-- `add(signature:)`: an entry that is already there is not added again. -/
def add (tx : Transaction) (signature : Signature) (now : Date) : Transaction :=
  if signature ∈ tx.signatures then tx
  else { tx with signatures := tx.signatures ++ [signature], updatedDate := some now }

/-- `remove(signature:)`. -/
def remove (tx : Transaction) (signature : Signature) (now : Date) : Transaction :=
  if signature ∈ tx.signatures then
    { tx with signatures := tx.signatures.erase signature, updatedDate := some now }
  else tx

/-- `isSignedBy(_:)`. -/
def isSignedBy (tx : Transaction) (address : Address) : Bool :=
  tx.signatures.any fun signature => signature.address = address

/-- A draft that proceeds is waiting for signatures, otherwise unchanged. -/
theorem proceed_of_draft {tx tx' : Transaction} {now : Date} (h : tx.proceed now = .ok tx')
    (hdraft : tx.status = .draft) :
    tx' = { tx with status := .signing, updatedDate := some now } := by
  simp only [proceed, hdraft, Trapping.bind_eq_ok_iff] at h
  obtain ⟨_, -, _, -, _, -, _, -, h⟩ := h
  cases h
  rfl

/-- What a change of the status keeps. -/
structure Keeps (tx tx' : Transaction) : Prop where
  id : tx'.id = tx.id
  accountID : tx'.accountID = tx.accountID
  sender : tx'.sender = tx.sender

/-- No change of the status touches the account or the sender. -/
theorem proceed_keeps {tx tx' : Transaction} {now : Date} (h : tx.proceed now = .ok tx') :
    tx.Keeps tx' := by
  unfold proceed at h
  split at h
  · simp only [Trapping.bind_eq_ok_iff] at h
    obtain ⟨_, -, _, -, _, -, _, -, h⟩ := h
    cases h
    exact ⟨rfl, rfl, rfl⟩
  · simp only [Trapping.bind_eq_ok_iff] at h
    obtain ⟨_, -, h⟩ := h
    cases h
    exact ⟨rfl, rfl, rfl⟩
  · cases h

theorem reject_keeps {tx tx' : Transaction} {now : Date} (h : tx.reject now = .ok tx') :
    tx.Keeps tx' := by
  unfold reject at h
  split at h
  · cases h
    exact ⟨rfl, rfl, rfl⟩
  · cases h

/-- Adding a signature touches the signatures and the date only. -/
theorem add_spec (tx : Transaction) (signature : Signature) (now : Date) :
    ∃ signatures date,
      tx.add signature now = { tx with signatures := signatures, updatedDate := date } := by
  unfold add
  split
  · exact ⟨tx.signatures, tx.updatedDate, rfl⟩
  · exact ⟨_, _, rfl⟩

end Transaction

end SafeWallet
