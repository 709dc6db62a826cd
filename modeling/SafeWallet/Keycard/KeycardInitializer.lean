/-
# The keycard

The signing key of a wallet may lie on a card that is reached over NFC. The program
selects the applet of the card, opens a secure channel with a pairing that it has
stored before, shows the card the PIN and then lets it derive keys and sign. It
keeps the pairings and the derived keys in a repository.

Everything the card answers is the card's own matter, and so are the faults of the
connection. The model is the sequence of commands and repository calls that the
program makes, and what it makes of their answers. The assertions of the source (that
the PIN, the PUK, the password and the path are set, that an initialised card tells its
instance, that a hash has 32 bytes) are not checked in a release and are left out.
-/

import SafeWallet.Base.Dialogue
import SafeWallet.Base.Table
import SafeWallet.Ethereum.Address

namespace SafeWallet

/-- `ApplicationInfo`: what the applet tells when it is selected. -/
structure ApplicationInfo where
  instanceUID : Data
  freePairingSlots : ℕ
  keyUID : Data
  initializedCard : Bool
  deriving DecidableEq, Repr

/-- `Pairing`: a key agreed with the card and the slot it takes there. -/
structure Pairing where
  pairingKey : Data
  pairingIndex : UInt8
  deriving DecidableEq, Repr

/-- `KeycardPairing`: a pairing as it is stored. -/
structure KeycardPairing where
  instanceUID : Data
  index : ℤ
  key : Data
  deriving DecidableEq, Repr

/-- `KeycardKey`: a key that was derived on a card. -/
structure KeycardKey where
  address : Address
  instanceUID : Data
  masterKeyUID : Data
  keyPath : String
  publicKey : Data
  deriving DecidableEq, Repr

/-- The errors of the commands: `StatusWord`, `CardError` and all others. -/
inductive CardFault
  | alreadyInitialized
  | allPairingSlotsTaken
  | securityConditionNotSatisfied
  | pairingIndexInvalid
  | dataInvalid
  | invalidAuthData
  | wrongPIN (retryCounter : ℕ)
  | other (message : String)
  deriving DecidableEq, Repr

/-- Why no card is there: the controller cannot be made, or `NFCReaderError`. -/
inductive ReaderFault
  | noController
  | sessionTimeout
  | sessionTerminatedUnexpectedly
  | userCanceled
  | systemIsBusy
  | other (message : String)
  deriving DecidableEq, Repr

/-- `KeycardApplicationService.Error`, and the errors that are passed on as they are. -/
inductive KeycardError
  | invalidPin (attempts : ℕ)
  | keycardBlocked
  | userCancelled
  | timeout
  | invalidPUK (attempts : ℕ)
  | keycardLost
  | invalidPairingPassword
  | noPairingSlotsRemaining
  | keycardNotInitialized
  | keycardAlreadyInitialized
  | keycardKeyNotFound
  | keycardNotPaired
  | unknownKeycard
  | unknownMasterKey
  | keycardPairingBecameInvalid
  | signingFailed
  | invalidSignature
  | invalidSigner
  | card (fault : CardFault)
  | reader (fault : ReaderFault)
  deriving DecidableEq, Repr

namespace KeycardErrorConverter

/-- `convertFromNFCReaderError(_:)`. -/
def convertFromNFCReaderError : ReaderFault → KeycardError
  | .sessionTimeout => .timeout
  | .sessionTerminatedUnexpectedly => .timeout
  | .userCanceled => .userCancelled
  | .systemIsBusy => .userCancelled
  | fault => .reader fault

/-- `convertFromPairingError(_:)`. -/
def convertFromPairingError : CardFault → KeycardError
  | .allPairingSlotsTaken => .noPairingSlotsRemaining
  | .invalidAuthData => .invalidPairingPassword
  | .securityConditionNotSatisfied => .invalidPairingPassword
  | fault => .card fault

/-- `isPairingWithExistingDataFailed(_:)`. -/
def isPairingWithExistingDataFailed : CardFault → Bool
  | .invalidAuthData => true
  | .pairingIndexInvalid => true
  | .dataInvalid => true
  | .securityConditionNotSatisfied => true
  | _ => false

/-- `convertFromAuthenticationError(_:)`. -/
def convertFromAuthenticationError : CardFault → KeycardError
  | .wrongPIN attempts => if attempts = 0 then .keycardBlocked else .invalidPin attempts
  | fault => .card fault

/-- `convertFromUnblockError(_:)`. -/
def convertFromUnblockError : CardFault → KeycardError
  | .wrongPIN attempts => if attempts = 0 then .keycardLost else .invalidPUK attempts
  | fault => .card fault

end KeycardErrorConverter

/-! ## Commands -/

/-- The commands of `KeycardFacade`, the calls of `KeycardRepository` and the begin of an
NFC session. -/
inductive KeycardMessage
  | connect
  | selectApplet
  | activate (pin puk password : String)
  | setPairing (pairing : Pairing)
  | resetPairing
  | pair (password : String)
  | openSecureChannel
  | authenticate (pin : String)
  | generateMasterKey
  | exportPublicKey (path : String)
  | sign (hash : Data) (keypath : String)
  | unblock (puk newPIN : String)
  | findPairing (instanceUID : Data)
  | savePairing (pairing : KeycardPairing)
  | removePairing (pairing : KeycardPairing)
  | findKey (address : Address)
  | saveKey (key : KeycardKey)
  | removeKey (key : KeycardKey)

namespace KeycardMessage

/-- What comes back. -/
abbrev Answer : KeycardMessage → Type
  | connect => Except ReaderFault Unit
  | selectApplet => Except CardFault ApplicationInfo
  | activate _ _ _ => Except CardFault Unit
  | setPairing _ => Unit
  | resetPairing => Unit
  | pair _ => Except CardFault Pairing
  | openSecureChannel => Except CardFault Unit
  | authenticate _ => Except CardFault Unit
  | generateMasterKey => Except CardFault Data
  | exportPublicKey _ => Except CardFault Data
  | sign _ _ => Except CardFault Data
  | unblock _ _ => Except CardFault Unit
  | findPairing _ => Option KeycardPairing
  | savePairing _ => Unit
  | removePairing _ => Unit
  | findKey _ => Option KeycardKey
  | saveKey _ => Unit
  | removeKey _ => Unit

end KeycardMessage

/-- A piece of the keycard code. -/
abbrev Keycard (α : Type) := Dialogue KeycardMessage KeycardMessage.Answer KeycardError α

namespace Keycard

/-- Send a message. -/
def send (m : KeycardMessage) : Keycard m.Answer := Dialogue.send m

/-- Send a command and convert its error. -/
def command {α : Type} (convert : CardFault → KeycardError) (m : KeycardMessage)
    (answer : m.Answer → Except CardFault α) : Keycard α :=
  .say m fun a =>
    match answer a with
    | .ok value => .pure value
    | .error fault => .fail (convert fault)

/-- `keycard.selectApplet()`. -/
def selectApplet : Keycard ApplicationInfo := command .card .selectApplet id

/-- `keycard.setPairing(key:index:)`; the index must fit into a byte. -/
def setPairing (pairing : KeycardPairing) : Keycard Unit :=
  if 0 ≤ pairing.index ∧ pairing.index < 256 then
    send (.setPairing ⟨pairing.key, UInt8.ofNat pairing.index.toNat⟩)
  else .trap .integerOverflow

/-- `keycardRepository.findPairing(instanceUID:)`. -/
def findPairing (instanceUID : Data) : Keycard (Option KeycardPairing) :=
  send (.findPairing instanceUID)

/-- `keycardRepository.findKey(with:)`. -/
def findKey (address : Address) : Keycard (Option KeycardKey) := send (.findKey address)

/-- Try to open the secure channel. -/
def tryOpenSecureChannel : Keycard (Except CardFault Unit) := send .openSecureChannel

end Keycard

/-- What the code uses of the encryption service. -/
structure KeycardEncryption where
  /-- `address(publicKey:)`. -/
  address : Data → Address
  /-- `recoveredAddress(from:hash:)`. -/
  recoveredAddress : Data → Data → Option Address

namespace KeycardInitializer

open KeycardErrorConverter Keycard

variable (encryption : KeycardEncryption)

/-- `ethereumMainnetHDWalletPath + hdPathSeparator + String(pathComponent)`. -/
def keypath (pathComponent : UInt32) : String :=
  "m/44'/60'/0'/0" ++ "/" ++ toString pathComponent.toNat

/-- `prepareForPairing()`. -/
def prepareForPairing : Keycard ApplicationInfo := do
  let info ← selectApplet
  if info.initializedCard then return info else .fail .keycardNotInitialized

/-- `activate()`. -/
def activate (pin puk password : String) : Keycard ApplicationInfo := do
  let info ← selectApplet
  if info.initializedCard then .fail .keycardAlreadyInitialized
  else
    command (fun fault => if fault = .alreadyInitialized then .keycardAlreadyInitialized
      else .card fault) (.activate pin puk password) id
    selectApplet

/-- `connectUsingExistingPairing()`. -/
def connectUsingExistingPairing (info : ApplicationInfo) : Keycard Bool := do
  match ← findPairing info.instanceUID with
  | none => return false
  | some pairing =>
    setPairing pairing
    match ← tryOpenSecureChannel with
    | .ok () => return true
    | .error fault =>
      if isPairingWithExistingDataFailed fault then
        send .resetPairing
        send (.removePairing pairing)
        return false
      else .fail (.card fault)

/-- `establishNewPairing()`. -/
def establishNewPairing (info : ApplicationInfo) (password : String) : Keycard Unit := do
  if info.freePairingSlots = 0 then .fail .noPairingSlotsRemaining
  else
    let pairing ← command convertFromPairingError (.pair password) id
    send (.savePairing ⟨info.instanceUID, pairing.pairingIndex.toNat, pairing.pairingKey⟩)
    command .card .openSecureChannel id

/-- `authenticate()`. -/
def authenticate (pin : String) : Keycard Unit :=
  command convertFromAuthenticationError (.authenticate pin) id

/-- `generateMasterKeyIfNeeded()`. -/
def generateMasterKeyIfNeeded (info : ApplicationInfo) : Keycard Data :=
  if info.keyUID = [] then command .card .generateMasterKey id else .pure info.keyUID

/-- `deriveKeyInKeycard()`. -/
def deriveKeyInKeycard (info : ApplicationInfo) (pin password : String) (pathComponent : UInt32) :
    Keycard Address := do
  let didConnect ← connectUsingExistingPairing info
  (if didConnect then pure () else establishNewPairing info password : Keycard Unit)
  authenticate pin
  let masterKeyUID ← generateMasterKeyIfNeeded info
  let publicKey ← command .card (.exportPublicKey (keypath pathComponent)) id
  let address := encryption.address publicKey
  send
    (.saveKey ⟨address, info.instanceUID, masterKeyUID, keypath pathComponent, publicKey⟩)
  return address

/-- `connectUsingAddress(_:)`. -/
def connectUsingAddress (address : Address) : Keycard KeycardKey := do
  match ← findKey address with
  | none => .fail .keycardKeyNotFound
  | some key =>
    let info ← selectApplet
    if info.instanceUID ≠ key.instanceUID then .fail .unknownKeycard
    else if info.keyUID ≠ key.masterKeyUID then .fail .unknownMasterKey
    else
      match ← findPairing key.instanceUID with
      | none => .fail .keycardNotPaired
      | some pairing =>
        setPairing pairing
        command (fun fault => if isPairingWithExistingDataFailed fault
          then .keycardPairingBecameInvalid else .card fault) .openSecureChannel id
        return key

/-- `sign(hash:by:pin:)`. -/
def sign (hash : Data) (address : Address) (pin : String) : Keycard Data := do
  let key ← connectUsingAddress address
  authenticate pin
  let signature ← command (fun _ => .signingFailed) (.sign hash key.keyPath) id
  match encryption.recoveredAddress signature hash with
  | none => .fail .invalidSignature
  | some recovered => if recovered = address then return signature else .fail .invalidSigner

/-- `unblock(address:)`. -/
def unblock (puk pin : String) (address : Address) : Keycard Unit := do
  let _ ← connectUsingAddress address
  command convertFromUnblockError (.unblock puk pin) id

end KeycardInitializer

namespace KeycardHardwareService

open KeycardErrorConverter KeycardInitializer

variable (encryption : KeycardEncryption)

/-- The session of the reader. -/
def connect : Keycard (Except ReaderFault Unit) := Keycard.send .connect

/-- `runOnKeycard(_:)`. -/
def runOnKeycard {α : Type} (operation : Keycard α) : Keycard α := do
  match ← connect with
  | .ok () => operation
  | .error .noController => .fail .userCancelled
  | .error fault => .fail (convertFromNFCReaderError fault)

/-- `pair(password:pin:keyPathComponent:)`. -/
def pair (password pin : String) (keyPathComponent : UInt32) : Keycard Address :=
  runOnKeycard do
    let info ← prepareForPairing
    deriveKeyInKeycard encryption info pin password keyPathComponent

/-- `initialize(pin:puk:pairingPassword:keyPathComponent:)`. -/
def initializeCard (pin puk pairingPassword : String) (keyPathComponent : UInt32) :
    Keycard Address :=
  runOnKeycard do
    let info ← activate pin puk pairingPassword
    deriveKeyInKeycard encryption info pin pairingPassword keyPathComponent

/-- `sign(hash:by:pin:)`. -/
def sign (hash : Data) (address : Address) (pin : String) : Keycard Data :=
  runOnKeycard (KeycardInitializer.sign encryption hash address pin)

/-- `unblock(puk:pin:address:)`. -/
def unblock (puk pin : String) (address : Address) : Keycard Unit :=
  runOnKeycard (KeycardInitializer.unblock puk pin address)

/-- `forgetKey(for:)`; the pairing stays. -/
def forgetKey (address : Address) : Keycard Unit := do
  match ← Keycard.findKey address with
  | none => return ()
  | some key => Keycard.send (.removeKey key)

end KeycardHardwareService

end SafeWallet
