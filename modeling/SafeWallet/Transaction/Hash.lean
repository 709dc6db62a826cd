/-
# The hash that is signed

Owners sign the EIP-712 hash of a transaction: the type hashes of the contract
version, the wallet's address and the call as it is made on the chain, with the
gas terms and the nonce. Fields that are not set when the hash is computed stop
the program.
-/

import SafeWallet.DomainRegistry

namespace SafeWallet

namespace EncryptionService

variable (services : Services) (store : Store)

/-- `TokenInt.data`: at least 32 bytes. The text of a negative number is no
hexadecimal text, which leaves the padding alone. -/
def intWord (value : ℤ) : Data :=
  Data.leftPadded 32 (if value < 0 then [] else Data.ofEthHex (Nat.toDigits 16 value.toNat))

/-- `Address.data`, through a big integer. -/
def addressWord (address : Address) : Trapping Data := do
  let digits := match address.value.toList with
    | '0' :: 'x' :: rest => rest
    | text => text
  let value ← Trapping.unwrap (services.kit.parseHex digits)
  return intWord value

/-- `DefaultEIP712SafeAppDomainSeparatorTypeHash`. -/
def defaultDomainSeparatorTypeHash : Data := Data.ofEthHex
  "0x035aff83d86937d35b32e04f0ddc6ff469290eef2f1b692d8a815c89404d4749".toList

/-- `DefaultEIP712SafeAppTxTypeHash`. -/
def defaultTxTypeHash : Data := Data.ofEthHex
  "0x14d461bc7412367e924637b363c7bf29b8f47e2f84869f4426e5633d8af47b20".toList

/-- The metadata of the contract version a transaction's wallet runs. -/
def masterCopyMetadata (tx : Transaction) : Option MasterCopyMetadata := do
  let wallet ← store.wallets.find tx.accountID.walletID
  let masterCopy ← wallet.masterCopyAddress
  services.metadata.masterCopy.find? fun copy => copy.address.normalized = masterCopy.normalized

/-- `txTypeHash(_:)`. -/
def txTypeHash (tx : Transaction) : Data :=
  ((masterCopyMetadata services store tx).map MasterCopyMetadata.txTypeHash).getD defaultTxTypeHash

/-- `domainSeparatorTypeHash(_:)`. -/
def domainSeparatorTypeHash (tx : Transaction) : Data :=
  ((masterCopyMetadata services store tx).map MasterCopyMetadata.domainSeparatorHash).getD
    defaultDomainSeparatorTypeHash

/-- `valueData(_:)`. -/
def valueData (tx : Transaction) : Trapping Data := do
  let ethTo ← addressWord services tx.ethTo
  let operation ← Trapping.unwrap tx.operation
  let feeEstimate ← Trapping.unwrap tx.feeEstimate
  let gasToken ← addressWord services feeEstimate.gasPrice.token.address
  let nonce ← Trapping.unwrap tx.nonce
  return [txTypeHash services store tx, ethTo, intWord tx.ethValue,
    services.kit.hashSHA3_256 (tx.data.getD []), intWord operation.rawValue,
    intWord feeEstimate.gas, intWord feeEstimate.dataGas, intWord feeEstimate.gasPrice.amount,
    gasToken, intWord 0, intWord nonce].flatten

/-- `domainData(_:)`. -/
def domainData (tx : Transaction) : Trapping Data := do
  let sender ← Trapping.unwrap tx.sender
  let sender ← addressWord services sender
  return domainSeparatorTypeHash services store tx ++ sender

/-- `hash(of:)`. -/
def hash (tx : Transaction) : Trapping Data := do
  let domain ← domainData services store tx
  let value ← valueData services store tx
  return services.kit.hashSHA3_256
    ([0x19, 0x01] ++ services.kit.hashSHA3_256 domain ++ services.kit.hashSHA3_256 value)

end EncryptionService

end SafeWallet
