/-
# Offered contracts

The relay answers a request for a new Safe with the address it will have and with the
call that sets it up. The program does not trust the answer: it writes the call itself
and compares the bytes, and it computes the address from them. What was asked for and
what the contract will be set up with are therefore the same, except for a payment
that does not fit into a word.
-/

import SafeWallet.Base.Decimal
import SafeWallet.DomainRegistry
import SafeWallet.Ethereum.SafeSetup
import SafeWallet.Transaction.Submission

namespace SafeWallet

open ContractProxy

/-! ## Known contracts -/

/-- `SafeContractMetadata` with what is needed for new contracts. -/
structure SafeCreationMetadata extends SafeContractMetadata where
  proxyFactoryAddress : Address
  proxyCode : Data
  defaultFallbackHandlerAddress : Address
  safeFunderAddress : Address

namespace SafeCreationMetadata

variable (metadata : SafeCreationMetadata)

/-- `isValidMasterCopy(address:)`. -/
def isValidMasterCopy (address : Address) : Bool :=
  metadata.masterCopy.any fun copy => copy.address.normalized = address.normalized

/-- `isValidProxyFactory(address:)`. -/
def isValidProxyFactory (address : Address) : Bool :=
  metadata.proxyFactoryAddress.normalized = address.normalized

/-- `isValidPaymentRecevier(address:)`. -/
def isValidPaymentRecevier (address : Address) : Bool :=
  metadata.safeFunderAddress.normalized = address.normalized ∨ address = Address.zero

/-- `deploymentCode(masterCopyAddress:)`. -/
def deploymentCode (masterCopyAddress : Address) : Data :=
  metadata.proxyCode ++ encodeAddress masterCopyAddress

/-- The addresses of the known contracts have twenty bytes. -/
structure WellFormed : Prop where
  proxyFactory : metadata.proxyFactoryAddress.WellFormed
  fallbackHandler : metadata.defaultFallbackHandlerAddress.WellFormed
  safeFunder : metadata.safeFunderAddress.WellFormed

end SafeCreationMetadata

/-! ## The validator -/

namespace SafeCreationResponseValidator

/-- `SafeCreationRequest`, the texts that are sent. -/
structure Request where
  saltNonce : String
  owners : List String
  threshold : ℤ
  paymentToken : String
  deriving DecidableEq, Repr

/-- `SafeCreationRequest.Response`, the texts that are checked. -/
structure Response where
  safe : String
  masterCopy : String
  proxyFactory : String
  paymentToken : String
  payment : ℤ
  paymentReceiver : String
  setupData : String
  deriving DecidableEq, Repr

/-- `SafeCreationValidationError`. -/
inductive SafeCreationValidationError
  | invalidPaymentToken
  | invalidMasterCopy
  | invalidProxyFactory
  | invalidPaymentReceiver
  | invalidSetupData
  | invalidAddress
  deriving DecidableEq, Repr

/-- `setupDataValue`. -/
def Response.setupDataValue (response : Response) : Data := Data.ofHex response.setupData.toList

variable (kit : EthereumKit) (metadata : SafeCreationMetadata) (response : Response)
  (request : Request)

/-- `expectedSetupData(from:request:)`. -/
def expectedSetupData : Trapping Data := do
  let owners ← request.owners.mapM Address.make
  let paymentToken ← Address.make request.paymentToken
  let paymentReceiver ← Address.make response.paymentReceiver
  GnosisSafe.setup kit {
    owners := owners
    threshold := request.threshold
    toAddress := Address.zero
    data := []
    fallbackHandler := metadata.defaultFallbackHandlerAddress
    paymentToken := paymentToken
    payment := response.payment
    paymentReceiver := paymentReceiver }

/-- `address(from:request:)`. -/
def address : Trapping Address := do
  let saltNonce ← Trapping.unwrap (Decimal.natural request.saltNonce.toList)
  let salt := kit.hashSHA3_256 (kit.hashSHA3_256 response.setupDataValue ++ encodeUInt saltNonce)
  Trapping.require (salt.length = 32)
  let masterCopy ← Address.make response.masterCopy
  let initCode := metadata.deploymentCode masterCopy
  let initAddress := Data.ofHex metadata.proxyFactoryAddress.value.toList
  Trapping.require (initAddress.length = 20)
  let preimage := [0xff] ++ initAddress ++ salt ++ kit.hashSHA3_256 initCode
  Trapping.require (preimage.length = 85)
  let hashed ← Trapping.advanced 12 (kit.hashSHA3_256 preimage)
  Address.make (String.ofList ('0' :: 'x' :: Data.toHexString (hashed.take 20)))

/-- `validate(_:request:)`. -/
def validate : Trapping (Except SafeCreationValidationError Unit) :=
  if response.paymentToken ≠ request.paymentToken then return .error .invalidPaymentToken
  else do
    let masterCopy ← Address.make response.masterCopy
    if ¬ metadata.isValidMasterCopy masterCopy then return .error .invalidMasterCopy
    else
      let proxyFactory ← Address.make response.proxyFactory
      if ¬ metadata.isValidProxyFactory proxyFactory then return .error .invalidProxyFactory
      else
        let paymentReceiver ← Address.make response.paymentReceiver
        if ¬ metadata.isValidPaymentRecevier paymentReceiver then
          return .error .invalidPaymentReceiver
        else
          let expected ← expectedSetupData kit metadata response request
          if response.setupDataValue ≠ expected then return .error .invalidSetupData
          else
            let safe ← Address.make response.safe
            let address ← address kit metadata response request
            if safe.normalized ≠ address.normalized then return .error .invalidAddress
            else return .ok ()

/-! ## What an accepted answer says -/

/-- The addresses of a request have twenty bytes, and the threshold is a machine integer. -/
structure Request.WellFormed : Prop where
  owners : ∀ owner ∈ request.owners, (⟨owner⟩ : Address).WellFormed
  paymentToken : (⟨request.paymentToken⟩ : Address).WellFormed
  threshold : request.threshold < 2 ^ 63

/-- The call that was asked for, as the answer completes it. -/
def requestedSetup : SafeSetup where
  owners := request.owners.map Address.mk
  threshold := request.threshold
  toAddress := Address.zero
  data := []
  fallbackHandler := metadata.defaultFallbackHandlerAddress
  paymentToken := ⟨request.paymentToken⟩
  payment := response.payment
  paymentReceiver := ⟨response.paymentReceiver⟩

variable {kit metadata response request}

theorem make_eq_ok {text : String} {a : Address} (h : Address.make text = .ok a) :
    a = ⟨text⟩ ∧ text.toList.take 2 = ['0', 'x'] := by
  rw [Address.make, Trapping.bind_eq_ok_iff] at h
  obtain ⟨_, hpre, h⟩ := h
  obtain ⟨_, _, h⟩ := Trapping.bind_eq_ok_iff.mp h
  exact ⟨(Except.ok.inj h).symm, by simpa using Trapping.require_eq_ok_iff.mp hpre⟩

theorem mapM_make_eq_ok {texts : List String} {addresses : List Address}
    (h : texts.mapM Address.make = .ok addresses) : addresses = texts.map Address.mk := by
  induction texts generalizing addresses with
  | nil => exact (Except.ok.inj h).symm
  | cons text texts ih =>
      rw [List.mapM_cons, Trapping.bind_eq_ok_iff] at h
      obtain ⟨first, hfirst, h⟩ := h
      obtain ⟨rest, hrest, h⟩ := Trapping.bind_eq_ok_iff.mp h
      rw [← Except.ok.inj h, (make_eq_ok hfirst).1, ih hrest]
      rfl

theorem expectedSetupData_eq_ok {expected : Data}
    (h : expectedSetupData kit metadata response request = .ok expected) :
    GnosisSafe.setup kit (requestedSetup metadata response request) = .ok expected := by
  rw [expectedSetupData, Trapping.bind_eq_ok_iff] at h
  obtain ⟨owners, howners, h⟩ := h
  obtain ⟨paymentToken, htoken, h⟩ := Trapping.bind_eq_ok_iff.mp h
  obtain ⟨paymentReceiver, hreceiver, h⟩ := Trapping.bind_eq_ok_iff.mp h
  rw [mapM_make_eq_ok howners, (make_eq_ok htoken).1, (make_eq_ok hreceiver).1] at h
  exact h

/-- The checks an accepted answer has passed. -/
theorem validate_eq_ok (h : validate kit metadata response request = .ok (.ok ())) :
    response.paymentToken = request.paymentToken ∧
    metadata.isValidPaymentRecevier ⟨response.paymentReceiver⟩ ∧
    response.paymentReceiver.toList.take 2 = ['0', 'x'] ∧
    expectedSetupData kit metadata response request = .ok response.setupDataValue ∧
    response.safe.toList.take 2 = ['0', 'x'] ∧
    ∃ computed, address kit metadata response request = .ok computed ∧
      (⟨response.safe⟩ : Address).normalized = computed.normalized := by
  rw [validate] at h
  split at h
  · cases Except.ok.inj h
  rename_i htoken
  obtain ⟨masterCopy, -, h⟩ := Trapping.bind_eq_ok_iff.mp h
  split at h
  · cases Except.ok.inj h
  obtain ⟨proxyFactory, -, h⟩ := Trapping.bind_eq_ok_iff.mp h
  split at h
  · cases Except.ok.inj h
  obtain ⟨paymentReceiver, hreceiver, h⟩ := Trapping.bind_eq_ok_iff.mp h
  obtain ⟨rfl, hreceiverPrefix⟩ := make_eq_ok hreceiver
  split at h
  · cases Except.ok.inj h
  rename_i hvalid
  obtain ⟨expected, hexpected, h⟩ := Trapping.bind_eq_ok_iff.mp h
  split at h
  · cases Except.ok.inj h
  rename_i hdata
  obtain ⟨safe, hsafe, h⟩ := Trapping.bind_eq_ok_iff.mp h
  obtain ⟨rfl, hsafePrefix⟩ := make_eq_ok hsafe
  obtain ⟨computed, hcomputed, h⟩ := Trapping.bind_eq_ok_iff.mp h
  split at h
  · cases Except.ok.inj h
  rename_i haddress
  rw [← not_not.mp hdata] at hexpected
  exact ⟨not_not.mp htoken, not_not.mp hvalid, hreceiverPrefix, hexpected, hsafePrefix, computed,
    hcomputed, not_not.mp haddress⟩

/-- An answer that passes the checks is accepted. -/
theorem validate_of_checks {computed : Address} (htoken : response.paymentToken = request.paymentToken)
    (hcopy : (⟨response.masterCopy⟩ : Address).WellFormed)
    (hvalidCopy : metadata.isValidMasterCopy ⟨response.masterCopy⟩)
    (hfactory : (⟨response.proxyFactory⟩ : Address).WellFormed)
    (hvalidFactory : metadata.isValidProxyFactory ⟨response.proxyFactory⟩)
    (hreceiver : (⟨response.paymentReceiver⟩ : Address).WellFormed)
    (hvalidReceiver : metadata.isValidPaymentRecevier ⟨response.paymentReceiver⟩)
    (hexpected : expectedSetupData kit metadata response request = .ok response.setupDataValue)
    (hsafe : (⟨response.safe⟩ : Address).WellFormed)
    (hcomputed : address kit metadata response request = .ok computed)
    (hsame : (⟨response.safe⟩ : Address).normalized = computed.normalized) :
    validate kit metadata response request = .ok (.ok ()) := by
  simp [validate, htoken, hcopy.make, hvalidCopy, hfactory.make, hvalidFactory, hreceiver.make,
    hvalidReceiver, hexpected, hsafe.make, hcomputed, hsame]

/-- EIP-1014: the bytes of the address of a contract that is created with a salt. -/
def create2Address (keccak : Data → Data) (factory salt initCode : Data) : Data :=
  (keccak ([0xff] ++ factory ++ salt ++ keccak initCode)).drop 12

/-- The text of an address with one prefix is read alike by both readers. -/
theorem ofHex_value {a : Address} (h : a.WellFormed) : Data.ofHex a.value.toList = a.data := by
  obtain ⟨digits, htext, hlength, hhex⟩ := h.exists_digits
  rw [Address.data, htext, Data.ofEthHex_prefixed, Data.ofEthHex,
    Data.dropHexPrefixes_of_isHex hhex, if_neg (by rw [hlength]; norm_num),
    Data.ofHex_of_isHex hhex]
  rfl

/-- The computed address. -/
theorem address_eq_ok {computed : Address} (hhash : ∀ data, (kit.hashSHA3_256 data).length = 32)
    (hfactory : metadata.proxyFactoryAddress.WellFormed)
    (h : address kit metadata response request = .ok computed) :
    ∃ saltNonce, Decimal.natural request.saltNonce.toList = some saltNonce ∧
      computed.WellFormed ∧
      computed.data = create2Address kit.hashSHA3_256 metadata.proxyFactoryAddress.data
        (kit.hashSHA3_256 (kit.hashSHA3_256 response.setupDataValue ++ encodeUInt saltNonce))
        (metadata.deploymentCode ⟨response.masterCopy⟩) := by
  rw [address, Trapping.bind_eq_ok_iff] at h
  obtain ⟨saltNonce, hnonce, h⟩ := h
  obtain ⟨_, -, h⟩ := Trapping.bind_eq_ok_iff.mp h
  obtain ⟨masterCopy, hcopy, h⟩ := Trapping.bind_eq_ok_iff.mp h
  obtain ⟨_, -, h⟩ := Trapping.bind_eq_ok_iff.mp h
  obtain ⟨_, -, h⟩ := Trapping.bind_eq_ok_iff.mp h
  rw [Trapping.advanced, if_pos (by rw [hhash]; norm_num), Trapping.ok_bind,
    List.take_of_length_le (by rw [List.length_drop, hhash]), (make_eq_ok hcopy).1,
    ofHex_value hfactory] at h
  refine ⟨saltNonce, Trapping.unwrap_eq_ok_iff.mp hnonce, ?_⟩
  rw [(make_eq_ok h).1, create2Address]
  generalize hbytes : (kit.hashSHA3_256 _).drop 12 = bytes
  have hlength : bytes.length = 20 := by rw [← hbytes, List.length_drop, hhash]
  constructor
  · exact Address.wellFormed_of_toList String.toList_ofList
      (by rw [Data.length_toHexString, hlength]) (Data.isHex_toHexString bytes)
  · rw [Address.data, String.toList_ofList, Data.ofEthHex_prefixed, Data.ofEthHex_toHexString]

/-- Addresses that are the same in lower case are well formed together. -/
theorem wellFormed_of_normalized_eq {text : String} {a : Address} (ha : a.WellFormed)
    (hpre : text.toList.take 2 = ['0', 'x'])
    (h : a.normalized = (⟨text⟩ : Address).normalized) :
    (⟨text⟩ : Address).WellFormed ∧ (⟨text⟩ : Address).data = a.data :=
  (Address.respelled_iff ha).mp ⟨by rw [ha.1, hpre], h⟩

theorem normalized_zero : Address.zero.normalized = Address.zero := by
  have hzero := Address.not_hasLetters_zero
  exact hzero.1.respelled_normalized.eq_of_not_hasLetters hzero.1 hzero.2

/-- The call that was asked for can be written. -/
theorem requestedSetup_encodable {metadata : SafeCreationMetadata} (response : Response)
    {request : Request} (hmetadata : metadata.WellFormed) (hrequest : request.WellFormed)
    (hreceiver : (⟨response.paymentReceiver⟩ : Address).WellFormed)
    (hthreshold : 0 ≤ request.threshold) (hpayment : 0 ≤ response.payment)
    (howners : (9 + request.owners.length) * 32 < 2 ^ 63) :
    (requestedSetup metadata response request).Encodable where
  owners_wellFormed := by
    intro owner howner
    obtain ⟨text, htext, rfl⟩ := List.mem_map.mp howner
    exact hrequest.owners text htext
  toAddress_wellFormed := Address.not_hasLetters_zero.1
  fallbackHandler_wellFormed := hmetadata.fallbackHandler
  paymentToken_wellFormed := hrequest.paymentToken
  paymentReceiver_wellFormed := hreceiver
  threshold_nonneg := hthreshold
  threshold_int := hrequest.threshold
  payment_nonneg := hpayment
  owners_int := by simpa [requestedSetup] using howners
  data_int := by norm_num [requestedSetup]

/-- The call of an accepted answer is the one that was asked for. -/
theorem decodeSetup_of_validate (hmetadata : metadata.WellFormed) (hrequest : request.WellFormed)
    (h : validate kit metadata response request = .ok (.ok ())) :
    GnosisSafe.decodeSetup kit response.setupDataValue = .ok (some
      { (requestedSetup metadata response request).normalized with
        payment := response.payment % 2 ^ 256 }) := by
  obtain ⟨htoken, hreceiver, hpre, hexpected, -⟩ := validate_eq_ok h
  have hsetup := expectedSetupData_eq_ok hexpected
  obtain ⟨hthreshold, hpayment, howners⟩ := GnosisSafe.setup_ok hsetup
  have hreceiverWF : (⟨response.paymentReceiver⟩ : Address).WellFormed := by
    simp only [SafeCreationMetadata.isValidPaymentRecevier, decide_eq_true_eq] at hreceiver
    cases hreceiver with
    | inl hfunder => exact (wellFormed_of_normalized_eq hmetadata.safeFunder hpre hfunder).1
    | inr hzero => exact hzero ▸ Address.not_hasLetters_zero.1
  have hencodable := requestedSetup_encodable response hmetadata hrequest hreceiverWF hthreshold
    hpayment (by simpa [requestedSetup] using howners)
  obtain ⟨data, hdata, hdecoded⟩ := GnosisSafe.decodeSetup_setup kit hencodable
  rw [Except.ok.inj (hsetup.symm.trans hdata)]
  exact hdecoded

/-- The address of an accepted answer is the one its call leads to. -/
theorem safe_of_validate (hhash : ∀ data, (kit.hashSHA3_256 data).length = 32)
    (hmetadata : metadata.WellFormed)
    (h : validate kit metadata response request = .ok (.ok ())) :
    ∃ saltNonce, Decimal.natural request.saltNonce.toList = some saltNonce ∧
      (⟨response.safe⟩ : Address).data =
        create2Address kit.hashSHA3_256 metadata.proxyFactoryAddress.data
          (kit.hashSHA3_256 (kit.hashSHA3_256 response.setupDataValue ++ encodeUInt saltNonce))
          (metadata.deploymentCode ⟨response.masterCopy⟩) := by
  obtain ⟨-, -, -, -, hpre, computed, hcomputed, hsame⟩ := validate_eq_ok h
  obtain ⟨saltNonce, hnonce, hwellFormed, hdata⟩ :=
    address_eq_ok hhash hmetadata.proxyFactory hcomputed
  exact ⟨saltNonce, hnonce,
    (wellFormed_of_normalized_eq hwellFormed hpre hsame.symm).2.trans hdata⟩

/-- The arguments of a set-up call are read back. An accepted answer has the call that was asked
for, with a payment that agrees with its own up to whole words, and the address that
follows from it. -/
theorem setup_checked :
    (∀ (kit : EthereumKit) (arguments : SafeSetup), arguments.Encodable →
      arguments.payment < 2 ^ 256 →
      ∃ data, GnosisSafe.setup kit arguments = .ok data ∧
        GnosisSafe.decodeSetup kit data = .ok (some arguments.normalized)) ∧
    ∀ (kit : EthereumKit) (metadata : SafeCreationMetadata) (response : Response)
        (request : Request),
      (∀ data, (kit.hashSHA3_256 data).length = 32) → metadata.WellFormed → request.WellFormed →
      validate kit metadata response request = .ok (.ok ()) →
      (∃ setup, GnosisSafe.decodeSetup kit response.setupDataValue = .ok (some setup) ∧
        setup.owners = request.owners.map (fun owner => (⟨owner⟩ : Address).normalized) ∧
        setup.threshold = request.threshold ∧
        setup.paymentToken = (⟨request.paymentToken⟩ : Address).normalized ∧
        setup.toAddress = Address.zero ∧ setup.data = [] ∧
        setup.fallbackHandler = metadata.defaultFallbackHandlerAddress.normalized ∧
        setup.payment = response.payment % 2 ^ 256) ∧
      ∃ saltNonce, Decimal.natural request.saltNonce.toList = some saltNonce ∧
        (⟨response.safe⟩ : Address).data =
          create2Address kit.hashSHA3_256 metadata.proxyFactoryAddress.data
            (kit.hashSHA3_256 (kit.hashSHA3_256 response.setupDataValue ++
              SubmitTransactionRequest.word saltNonce))
            (metadata.deploymentCode ⟨response.masterCopy⟩) := by
  constructor
  · intro kit arguments hencodable hpayment
    obtain ⟨data, hsetup, hdecoded⟩ := GnosisSafe.decodeSetup_setup kit hencodable
    refine ⟨data, hsetup, ?_⟩
    rwa [Int.emod_eq_of_lt hencodable.payment_nonneg hpayment] at hdecoded
  · intro kit metadata response request hhash hmetadata hrequest h
    constructor
    · refine ⟨_, decodeSetup_of_validate hmetadata hrequest h, ?_⟩
      simp [requestedSetup, SafeSetup.normalized, normalized_zero]
    · obtain ⟨saltNonce, hnonce, hsafe⟩ := safe_of_validate hhash hmetadata h
      rw [SubmitTransactionRequest.encodeUInt_eq_word] at hsafe
      exact ⟨saltNonce, hnonce, hsafe⟩

/-! ## An answer of the relay -/

/-- Numbers as words one after the other. -/
def wordsOf (numbers : List ℕ) : Data := (numbers.map SubmitTransactionRequest.word).flatten

def sampleMetadata : SafeCreationMetadata where
  multiSendContractAddress := ⟨"0xe74d6af1670fb6560dd61ee29eb57c7bc027ce4e"⟩
  masterCopy := [⟨⟨"0x34CfAC646f301356fAa8B21e94227e3583Fe3F5F"⟩, "1.1.1",
    wordsOf [0xbb8310d486368db6bd6f849402fdd73ad53d316b5a4b2644ad6efe0f941286d8],
    wordsOf [0x035aff83d86937d35b32e04f0ddc6ff469290eef2f1b692d8a815c89404d4749]⟩]
  multiSend := []
  proxyFactoryAddress := ⟨"0x76E2cFc1F5Fa8F6a5b3fC4c8F4788F0116861F9B"⟩
  proxyCode := wordsOf [
    0x608060405234801561001057600080fd5b506040516101e73803806101e78339,
    0x818101604052602081101561003357600080fd5b810190808051906020019092,
    0x9190505050600073ffffffffffffffffffffffffffffffffffffffff168173ff,
    0xffffffffffffffffffffffffffffffffffffff1614156100ca576040517f08c3,
    0x79a0000000000000000000000000000000000000000000000000000000008152,
    0x6004018080602001828103825260248152602001806101c36024913960400191,
    0x505060405180910390fd5b806000806101000a81548173ffffffffffffffffff,
    0xffffffffffffffffffffff021916908373ffffffffffffffffffffffffffffff,
    0xffffffffff1602179055505060aa806101196000396000f3fe608060405273ff,
    0xffffffffffffffffffffffffffffffffffffff600054167fa619486e00000000,
    0x0000000000000000000000000000000000000000000000006000351415605057,
    0x8060005260206000f35b3660008037600080366000845af43d6000803e600081,
    0x14156070573d6000fd5b3d6000f3fea265627a7a72315820d8a00dc4fe6bf675,
    0xa9d7416fc2d00bb3433362aa8186b750f76c4027269667ff64736f6c63430005,
    0x0e0032496e76616c6964206d617374657220636f707920616464726573732070] ++
    EthereumKit.bytes 7 0x726f7669646564
  defaultFallbackHandlerAddress := ⟨"0xd5D82B6aDDc9027B22dCA772Aa68D5d74cdBdF44"⟩
  safeFunderAddress := ⟨"0xd9e09beaEb338d81a7c5688358df0071d4988115"⟩

def sampleRequest : Request where
  saltNonce := "1"
  owners := ["0x8E70F49bdfaBD36Da93f5Bab1B7170A49D3fD3f9",
    "0x72E3d79B0eED7d4996bEf38acFD700f45A0dF16e", "0xF6767C1D215b3345B77Eebd642710426f645C4cE",
    "0x2fB448d42A0e77fAb64aa9575Dcd6fc7650F8AA6"]
  threshold := 2
  paymentToken := "0xb3a4Bc89d8517E0e2C9B66703d09D3029ffa1e6d"

/-- The bytes of the set-up call. -/
def sampleSetupData : Data :=
  [0xb6, 0x3e, 0x80, 0x0d] ++ wordsOf [0x100, 2, 0, 0x1a0,
    0xd5d82b6addc9027b22dca772aa68d5d74cdbdf44, 0xb3a4bc89d8517e0e2c9b66703d09d3029ffa1e6d,
    0x22b2e, 0, 4, 0x8e70f49bdfabd36da93f5bab1b7170a49d3fd3f9,
    0x72e3d79b0eed7d4996bef38acfd700f45a0df16e, 0xf6767c1d215b3345b77eebd642710426f645c4ce,
    0x2fb448d42a0e77fab64aa9575dcd6fc7650f8aa6, 0, 0]

/-- The answer, with the given payment. -/
def sampleResponse (payment : ℤ) : Response where
  safe := "0x036eF8b7A79C8a1e74479C8325567676E0373aD9"
  masterCopy := "0x34CfAC646f301356fAa8B21e94227e3583Fe3F5F"
  proxyFactory := "0x76E2cFc1F5Fa8F6a5b3fC4c8F4788F0116861F9B"
  paymentToken := "0xb3a4Bc89d8517E0e2C9B66703d09D3029ffa1e6d"
  payment := payment
  paymentReceiver := "0x0000000000000000000000000000000000000000"
  setupData := String.ofList ('0' :: 'x' :: Data.toHexString sampleSetupData)

/-- The hashes that are taken on the way. -/
def sampleKit : EthereumKit := .ofHashes [
  (ascii GnosisSafe.setupSignature,
    0xb63e800d34f56a9238e5b86a8547a23865164bec371bede606e899182da118bf),
  (sampleSetupData, 0x68a99e53c0e083d02a280a9b4e33ce26da78e48191458e0ebc5d546875f623da),
  (wordsOf [0x68a99e53c0e083d02a280a9b4e33ce26da78e48191458e0ebc5d546875f623da, 1],
    0x48f48c7c36e2fcd3030961264ed27abeeeb4c77e04aea5e79ec75c747d250ede),
  (sampleMetadata.proxyCode ++ wordsOf [0x34CfAC646f301356fAa8B21e94227e3583Fe3F5F],
    0xe394bf15ed11182eb65ec03f5125c0bbcbf87abfb567d5590bcbe40af27c446d),
  ([0xff] ++ EthereumKit.bytes 20 0x76E2cFc1F5Fa8F6a5b3fC4c8F4788F0116861F9B ++
      wordsOf [0x48f48c7c36e2fcd3030961264ed27abeeeb4c77e04aea5e79ec75c747d250ede,
        0xe394bf15ed11182eb65ec03f5125c0bbcbf87abfb567d5590bcbe40af27c446d],
    0xad7e222d8a09bea934634e79036ef8b7a79c8a1e74479c8325567676e0373ad9)]

/-- The written digits are read as the bytes. -/
theorem setupDataValue_sampleResponse (payment : ℤ) :
    (sampleResponse payment).setupDataValue = sampleSetupData := by
  rw [Response.setupDataValue, sampleResponse, String.toList_ofList, Data.ofHex,
    Data.bytesOfDigits_toHexString]
  rfl

/-- What the kit makes of the set-up call, the salt, the code and the preimage of the
address. -/
theorem sample_hashes :
    sampleKit.hashSHA3_256 sampleSetupData =
      wordsOf [0x68a99e53c0e083d02a280a9b4e33ce26da78e48191458e0ebc5d546875f623da] ∧
    sampleKit.hashSHA3_256
      (wordsOf [0x68a99e53c0e083d02a280a9b4e33ce26da78e48191458e0ebc5d546875f623da, 1]) =
      wordsOf [0x48f48c7c36e2fcd3030961264ed27abeeeb4c77e04aea5e79ec75c747d250ede] ∧
    sampleKit.hashSHA3_256
      (sampleMetadata.proxyCode ++ wordsOf [0x34CfAC646f301356fAa8B21e94227e3583Fe3F5F]) =
      wordsOf [0xe394bf15ed11182eb65ec03f5125c0bbcbf87abfb567d5590bcbe40af27c446d] ∧
    sampleKit.hashSHA3_256
      ([0xff] ++ EthereumKit.bytes 20 0x76E2cFc1F5Fa8F6a5b3fC4c8F4788F0116861F9B ++
        wordsOf [0x48f48c7c36e2fcd3030961264ed27abeeeb4c77e04aea5e79ec75c747d250ede,
          0xe394bf15ed11182eb65ec03f5125c0bbcbf87abfb567d5590bcbe40af27c446d]) =
      wordsOf [0xad7e222d8a09bea934634e79036ef8b7a79c8a1e74479c8325567676e0373ad9] := by
  decide +kernel

theorem sample_address (payment : ℤ) :
    address sampleKit sampleMetadata (sampleResponse payment) sampleRequest =
      .ok ⟨"0x036ef8b7a79c8a1e74479c8325567676e0373ad9"⟩ := by
  obtain ⟨hhashData, hhashSalt, hhashCode, hhashPreimage⟩ := sample_hashes
  have hnonce : Decimal.natural sampleRequest.saltNonce.toList = some 1 := by decide +kernel
  have hcopy : Address.make (sampleResponse payment).masterCopy =
      .ok ⟨"0x34CfAC646f301356fAa8B21e94227e3583Fe3F5F"⟩ := by
    change Address.make "0x34CfAC646f301356fAa8B21e94227e3583Fe3F5F" = _
    decide +kernel
  have hcode : encodeAddress ⟨"0x34CfAC646f301356fAa8B21e94227e3583Fe3F5F"⟩ =
      wordsOf [0x34CfAC646f301356fAa8B21e94227e3583Fe3F5F] := by
    decide +kernel
  have hfactory : Data.ofHex sampleMetadata.proxyFactoryAddress.value.toList =
      EthereumKit.bytes 20 0x76E2cFc1F5Fa8F6a5b3fC4c8F4788F0116861F9B := by
    decide +kernel
  have hsalt : wordsOf [0x68a99e53c0e083d02a280a9b4e33ce26da78e48191458e0ebc5d546875f623da] ++
      encodeUInt 1 =
        wordsOf [0x68a99e53c0e083d02a280a9b4e33ce26da78e48191458e0ebc5d546875f623da, 1] := by
    rw [SubmitTransactionRequest.encodeUInt_eq_word]
    simp [wordsOf]
  have hpreimage :
      wordsOf [0x48f48c7c36e2fcd3030961264ed27abeeeb4c77e04aea5e79ec75c747d250ede] ++
        wordsOf [0xe394bf15ed11182eb65ec03f5125c0bbcbf87abfb567d5590bcbe40af27c446d] =
      wordsOf [0x48f48c7c36e2fcd3030961264ed27abeeeb4c77e04aea5e79ec75c747d250ede,
        0xe394bf15ed11182eb65ec03f5125c0bbcbf87abfb567d5590bcbe40af27c446d] := by
    simp [wordsOf]
  simp only [address, hnonce, Trapping.unwrap_some, Trapping.ok_bind,
    setupDataValue_sampleResponse, hhashData, hsalt, hhashSalt, hcopy,
    SafeCreationMetadata.deploymentCode, hcode, hhashCode, hfactory, List.append_assoc, hpreimage]
  simp only [← List.append_assoc, hhashPreimage]
  decide +kernel

theorem sampleMetadata_wellFormed : sampleMetadata.WellFormed where
  proxyFactory := by decide
  fallbackHandler := by decide
  safeFunder := by decide

theorem sampleRequest_wellFormed : sampleRequest.WellFormed where
  owners := by decide
  paymentToken := by decide
  threshold := by decide

/-- The answer is accepted with every payment for which the call is the same. -/
theorem validate_sampleResponse {payment : ℤ}
    (hexpected : expectedSetupData sampleKit sampleMetadata (sampleResponse payment)
      sampleRequest = .ok sampleSetupData) :
    validate sampleKit sampleMetadata (sampleResponse payment) sampleRequest = .ok (.ok ()) := by
  have hsafe : (⟨"0x036eF8b7A79C8a1e74479C8325567676E0373aD9"⟩ : Address).WellFormed := by
    decide
  have hcomputed : (⟨"0x036ef8b7a79c8a1e74479c8325567676e0373ad9"⟩ : Address).WellFormed := by
    decide
  have hcopy : (⟨"0x34CfAC646f301356fAa8B21e94227e3583Fe3F5F"⟩ : Address).WellFormed := by
    decide
  have hvalidCopy : sampleMetadata.isValidMasterCopy
      ⟨"0x34CfAC646f301356fAa8B21e94227e3583Fe3F5F"⟩ :=
    List.any_eq_true.mpr ⟨_, List.mem_singleton.mpr rfl, decide_eq_true rfl⟩
  have hvalidReceiver : sampleMetadata.isValidPaymentRecevier Address.zero :=
    decide_eq_true (.inr rfl)
  rw [← setupDataValue_sampleResponse payment] at hexpected
  exact validate_of_checks rfl hcopy hvalidCopy sampleMetadata_wellFormed.proxyFactory
    (decide_eq_true rfl) Address.not_hasLetters_zero.1 hvalidReceiver hexpected hsafe
    (sample_address payment)
    ((Address.normalized_eq_iff hsafe hcomputed).mpr (by decide +kernel))

theorem sample_expectedSetupData :
    expectedSetupData sampleKit sampleMetadata (sampleResponse 142126) sampleRequest =
      .ok sampleSetupData := by
  decide +kernel

theorem setup_checked_sampleResponse :
    (∃ data, GnosisSafe.setup sampleKit
        (requestedSetup sampleMetadata (sampleResponse 142126) sampleRequest) = .ok data ∧
      GnosisSafe.decodeSetup sampleKit data = .ok (some
        (requestedSetup sampleMetadata (sampleResponse 142126) sampleRequest).normalized)) ∧
    ∃ setup, GnosisSafe.decodeSetup sampleKit (sampleResponse 142126).setupDataValue =
        .ok (some setup) ∧
      setup.threshold = 2 ∧ setup.payment = 142126 := by
  have hencodable := requestedSetup_encodable (sampleResponse 142126)
    sampleMetadata_wellFormed sampleRequest_wellFormed Address.not_hasLetters_zero.1 (by decide)
    (by decide) (by decide)
  refine ⟨setup_checked.1 sampleKit _ hencodable (by decide), ?_⟩
  obtain ⟨⟨setup, hsetup, -, hthreshold, -, -, -, -, hpayment⟩, -⟩ :=
    setup_checked.2 sampleKit sampleMetadata (sampleResponse 142126) sampleRequest
      (EthereumKit.length_ofHashes _) sampleMetadata_wellFormed sampleRequest_wellFormed
      (validate_sampleResponse sample_expectedSetupData)
  exact ⟨setup, hsetup, hthreshold, hpayment⟩

/-- The payment of the answer above and as much as does not fit into a word. -/
def excessivePayment : ℤ := 2 ^ 256 + 142126

theorem excessive_expectedSetupData :
    expectedSetupData sampleKit sampleMetadata (sampleResponse excessivePayment) sampleRequest =
      expectedSetupData sampleKit sampleMetadata (sampleResponse 142126) sampleRequest := by
  rw [expectedSetupData, expectedSetupData]
  refine congrArg (_ >>= ·) (funext fun owners => ?_)
  refine congrArg (_ >>= ·) (funext fun paymentToken => ?_)
  refine congrArg (_ >>= ·) (funext fun paymentReceiver => ?_)
  exact GnosisSafe.setup_payment_congr sampleKit
    ⟨owners, 2, Address.zero, [], sampleMetadata.defaultFallbackHandlerAddress, paymentToken, 0,
      paymentReceiver⟩ (by decide) (by decide) (by decide)

/-- An answer with a payment that does not fit into a word is accepted, and its call pays
less. -/
theorem excessivePayment_accepted :
    validate sampleKit sampleMetadata (sampleResponse excessivePayment) sampleRequest =
      .ok (.ok ()) ∧
    ∃ setup, GnosisSafe.decodeSetup sampleKit (sampleResponse excessivePayment).setupDataValue =
        .ok (some setup) ∧
      setup.payment = 142126 ∧ setup.payment ≠ (sampleResponse excessivePayment).payment := by
  have haccepted := validate_sampleResponse
    (excessive_expectedSetupData.trans sample_expectedSetupData)
  refine ⟨haccepted, _,
    decodeSetup_of_validate sampleMetadata_wellFormed sampleRequest_wellFormed haccepted, ?_, ?_⟩
  · change excessivePayment % 2 ^ 256 = 142126
    decide
  · change excessivePayment % 2 ^ 256 ≠ excessivePayment
    decide

end SafeCreationResponseValidator

end SafeWallet
