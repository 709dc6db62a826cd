/-
# The Ethereum library

Hashing, signing and parsing of big integers are done by libraries the program
links against. What it calls is collected in one structure, together with the
documented behaviour it relies on; everything else in this development is
computed from there. The functions below the structure are those of
`EncryptionService` that only wrap it.
-/

import SafeWallet.Ethereum.Address
import SafeWallet.Base.Trapping

namespace SafeWallet

/-- `EthSignature`: the components of a signature, the first two as numbers. -/
structure EthSignature where
  r : ℕ
  s : ℕ
  v : ℕ
  deriving DecidableEq, Repr

/-- The library functions the program calls. -/
structure EthereumKit where
  /-- `Crypto.hashSHA3_256`, which is Keccak-256. -/
  hashSHA3_256 : Data → Data
  /-- `EIP55.encode`: the digits of an address, their letter case a checksum. -/
  eip55 : Data → List Char
  /-- The checksum is in the letter case alone. -/
  eip55_toLower : ∀ data, (eip55 data).map Char.toLower = data.toHexString
  /-- The address of the public key a signature of a hash recovers to. -/
  publicKeyAddress : Data → EthSignature → Option Data
  publicKeyAddress_length : ∀ {hash signature address},
    publicKeyAddress hash signature = some address → address.length = 20
  /-- `EIP155Signer.calculateSignature`: the components as bytes. -/
  calculateSignature : EthSignature → Data
  /-- `EIP155Signer.calculateRSV`: the bytes as components. -/
  calculateRSV : Data → EthSignature
  /-- `Crypto.sign` of a hash by a private key. -/
  sign : Data → Data → Data
  /-- `BigInt(_:radix: 16)`. -/
  parseHex : List Char → Option ℤ
  parseHex_of_isHex : ∀ {digits}, digits ≠ [] → IsHex digits →
    parseHex digits = some (digitsValue digits : ℤ)

namespace EthereumKit

variable (kit : EthereumKit)

/-- The text of twenty bytes as the program writes an address itself. -/
def checksummed (data : Data) : Address := ⟨String.ofList ('0' :: 'x' :: kit.eip55 data)⟩

/-- `EncryptionService.address(from:)`. -/
def formatted (text : String) : Option Address :=
  let data := Data.ofEthHex text.toList
  if data.length = 20 then some (kit.checksummed data) else none

/-- `EncryptionService.address(hash:signature:)`. -/
def recoveredAddress (hash : Data) (signature : EthSignature) : Option Address :=
  (kit.publicKeyAddress hash signature).map kit.checksummed

/-- A checksummed address is the address of its bytes. -/
theorem checksummed_spec {data : Data} (hlength : data.length = 20) :
    (kit.checksummed data).WellFormed ∧ (kit.checksummed data).toUInt = data.toNat := by
  have hlower : (kit.eip55 data).map Char.toLower = data.toHexString := kit.eip55_toLower data
  have hdigits : (kit.eip55 data).length = 40 := by
    have := congrArg List.length hlower
    simpa [hlength] using this
  have hhex : IsHex (kit.eip55 data) := isHex_of_map_toLower (hlower ▸ Data.isHex_toHexString data)
  have htext : (kit.checksummed data).value.toList = '0' :: 'x' :: kit.eip55 data := by
    simp [checksummed]
  have hwf : (kit.checksummed data).WellFormed := Address.wellFormed_of_toList htext hdigits hhex
  refine ⟨hwf, ?_⟩
  have hnormal : (kit.checksummed data).normalized.value.toList = '0' :: 'x' :: data.toHexString := by
    rw [Address.normalized_toList, htext]
    simp [hlower]
  rw [← hwf.normalized.2, Address.toUInt, Address.data, hnormal, Data.ofEthHex_prefixed,
    Data.ofEthHex_toHexString]

/-- Formatting keeps the address and fixes its letter case. -/
theorem formatted_of_wellFormed {a : Address} (h : a.WellFormed) :
    ∃ b, kit.formatted a.value = some b ∧ b = kit.checksummed a.data ∧ b.WellFormed ∧
      b.toUInt = a.toUInt := by
  have hlength : (Data.ofEthHex a.value.toList).length = 20 := h.data_spec.1
  obtain ⟨hwf, hvalue⟩ := kit.checksummed_spec h.data_spec.1
  exact ⟨kit.checksummed a.data, by simp [formatted, hlength, Address.data], rfl, hwf, hvalue⟩

/-! ## Kits given by tables -/

/-- The bytes of a number, as many as given. -/
def bytes (count n : ℕ) : Data :=
  (List.range count).map fun i => UInt8.ofNat (n / 256 ^ (count - 1 - i))

/-- A finite record of what the library computes. -/
structure Recording where
  hashes : List (Data × Data)
  checksums : List (Data × List Char)
  signers : List ((Data × EthSignature) × Data)
  signatures : List ((Data × Data) × Data)

/-- The kit that answers from a recording. Entries that contradict the documented
behaviour are not used, so every recording gives a lawful kit. -/
def ofRecording (recording : Recording) : EthereumKit where
  hashSHA3_256 data := (recording.hashes.lookup data).getD []
  eip55 data :=
    ((recording.checksums.lookup data).filter fun digits =>
      digits.map Char.toLower = data.toHexString).getD data.toHexString
  eip55_toLower data := by
    cases hfound : (recording.checksums.lookup data).filter fun digits =>
        digits.map Char.toLower = data.toHexString with
    | none => exact Data.map_toLower_toHexString data
    | some digits => simpa using (Option.filter_eq_some_iff.mp hfound).2
  publicKeyAddress hash signature :=
    (recording.signers.lookup (hash, signature)).filter fun address => address.length = 20
  publicKeyAddress_length h := by simpa using (Option.filter_eq_some_iff.mp h).2
  calculateSignature signature :=
    ofNatBytes signature.r ++ ofNatBytes signature.s ++ [UInt8.ofNat (signature.v - 27)]
  calculateRSV data :=
    ⟨Data.toNat (data.take 32), Data.toNat ((data.drop 32).take 32),
      Data.toNat (data.drop 64) + 27⟩
  sign hash privateKey := (recording.signatures.lookup (hash, privateKey)).getD []
  parseHex digits := if digits ≠ [] ∧ IsHex digits then some (digitsValue digits : ℤ) else none
  parseHex_of_isHex hne hhex := if_pos ⟨hne, hhex⟩
where
  /-- A number as 32 bytes. -/
  ofNatBytes (n : ℕ) : Data := Data.leftPadded 32 (Data.ofEthHex (Nat.toDigits 16 n))

/-- The kit that hashes by a table, what is not in it to zero. All hashes have 32 bytes. -/
def ofHashes (hashes : List (Data × ℕ)) : EthereumKit :=
  { ofRecording ⟨[], [], [], []⟩ with
    hashSHA3_256 := fun data => bytes 32 ((hashes.lookup data).getD 0) }

theorem length_ofHashes (hashes : List (Data × ℕ)) (data : Data) :
    ((ofHashes hashes).hashSHA3_256 data).length = 32 := by
  simp [ofHashes, bytes]

end EthereumKit

end SafeWallet
