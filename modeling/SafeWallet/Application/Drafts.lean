/-
# Drafts made from requests

A request names a call: a contract, a value and data. The program splits it into
recipient, amount and token for display and recombines it when the transaction is
estimated, hashed and submitted. The two translations are inverse for plain calls;
a token transfer survives them only if it sends no Ether along, and one addressed
to the zero address only if it transfers what the request itself would.
-/

import SafeWallet.Application.Messages

namespace SafeWallet

namespace WalletApplication

variable (services : Services) (store : Store)

/-- The transaction makes the requested call. -/
def Performs (tx : Transaction) (request : SendTransactionRequiredData) : Prop :=
  tx.ethTo.data = request.toAddress.data ∧ tx.ethValue = request.value ∧ tx.ethData = request.data

variable {services store}

/-- The library's hash of the transfer selector. -/
def transferKit : EthereumKit := .ofRecording
  ⟨[(ContractProxy.ascii "transfer(address,uint256)", Data.ofEthHex
    "0xa9059cbb2ab09eb219583f4a59a5d0623ade346d962bcd4e46b11da047c9049b".toList)], [], [], []⟩

/-- Services with that library and a node that does not answer. -/
def transferServices : Services := .offline transferKit ⟨Address.zero, [], []⟩

/-- A wallet without owners, which is all a draft needs. -/
def draftWallet : Wallet where
  id := "wallet"
  state := .readyToUse
  owners := []
  address := some ⟨"0x5aAeb6053F3E94C9b9A09f33669435E7Ef1BeAed"⟩
  feePaymentTokenAddress := none
  confirmationCount := 1
  masterCopyAddress := none

end WalletApplication

end SafeWallet
