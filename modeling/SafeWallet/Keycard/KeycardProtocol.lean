/-
# What the keycard is told, and when

A card that answers in any way at all, and that may be taken away or replaced between
any two commands, cannot make the program show the PIN outside of a secure channel or
twice in a session, initialize a card again, replace its master key, use up a pairing
slot while a pairing is stored, or sign with a key of another card.
-/

import SafeWallet.Keycard.KeycardInitializer

namespace SafeWallet

/-- What has happened since the card was connected. -/
structure CardSession where
  info : Option ApplicationInfo := none
  pairing : Option Pairing := none
  channelOpen : Bool := false
  rejected : Bool := false
  pinSent : Bool := false
  authenticated : Bool := false
  masterKey : Option Data := none
  exported : List (String × Data) := []

/-- The repository and the session. -/
structure KeycardState where
  pairings : Table KeycardPairing.instanceUID
  keys : Table KeycardKey.address
  session : CardSession

namespace KeycardState

open KeycardErrorConverter

/-- Nothing is stored yet and no card is there. -/
def fresh : KeycardState := ⟨.empty, .empty, {}⟩

/-- The session has ended. -/
def disconnected (s : KeycardState) : KeycardState := { s with session := {} }

/-- What a message and its answer change. -/
def update (s : KeycardState) : (m : KeycardMessage) → m.Answer → KeycardState
  | .connect, _ => s.disconnected
  | .selectApplet, Except.ok info => { s with session := { s.session with
      info := some info, channelOpen := false, authenticated := false } }
  | .selectApplet, Except.error _ => s
  | .activate _ _ _, _ => s
  | .setPairing pairing, _ => { s with session := { s.session with pairing := some pairing } }
  | .resetPairing, _ => { s with session := { s.session with pairing := none } }
  | .pair _, Except.ok pairing => { s with session := { s.session with pairing := some pairing } }
  | .pair _, Except.error _ => s
  | .openSecureChannel, Except.ok _ => { s with session := { s.session with
      channelOpen := true } }
  | .openSecureChannel, Except.error fault => { s with session := { s.session with
      channelOpen := false, rejected := isPairingWithExistingDataFailed fault } }
  | .authenticate _, Except.ok _ => { s with session := { s.session with
      pinSent := true, authenticated := true } }
  | .authenticate _, Except.error _ => { s with session := { s.session with pinSent := true } }
  | .generateMasterKey, Except.ok masterKey => { s with session := { s.session with
      masterKey := some masterKey } }
  | .generateMasterKey, Except.error _ => s
  | .exportPublicKey path, Except.ok publicKey => { s with session := { s.session with
      exported := (path, publicKey) :: s.session.exported } }
  | .exportPublicKey _, Except.error _ => s
  | .sign _ _, _ => s
  | .unblock _ _, _ => s
  | .findPairing _, _ => s
  | .savePairing pairing, _ => { s with pairings := s.pairings.save pairing }
  | .removePairing pairing, _ =>
    ⟨s.pairings.remove pairing.instanceUID, s.keys, { s.session with rejected := false }⟩
  | .findKey _, _ => s
  | .saveKey key, _ => { s with keys := s.keys.save key }
  | .removeKey key, _ => { s with keys := s.keys.remove key.address }

/-- The repository answers with what it holds; the card answers as it likes. -/
def Answers (s : KeycardState) : (m : KeycardMessage) → m.Answer → Prop
  | .findPairing instanceUID, found => found = s.pairings.find instanceUID
  | .findKey address, found => found = s.keys.find address
  | _, _ => True

/-- The pairing is the one that is stored for the selected card. -/
def IsStored (s : KeycardState) (info : ApplicationInfo) (pairing : Pairing) : Prop :=
  ∃ stored, s.pairings.find info.instanceUID = some stored ∧ stored.key = pairing.pairingKey ∧
    stored.index = pairing.pairingIndex.toNat

/-- The key is stored for the selected card and for the master key that lies on it. -/
def IsOnCard (s : KeycardState) (info : ApplicationInfo) (key : KeycardKey) : Prop :=
  key ∈ s.keys.rows ∧ key.instanceUID = info.instanceUID ∧ key.masterKeyUID = info.keyUID

/-- The secure channel is open, with the pairing that is stored for the selected card. -/
def Secured (s : KeycardState) : Prop :=
  s.session.channelOpen = true ∧ ∃ info pairing, s.session.info = some info ∧
    s.session.pairing = some pairing ∧ s.IsStored info pairing

/-- When each message may be sent. -/
def InTurn (encryption : KeycardEncryption) (s : KeycardState) : KeycardMessage → Prop
  | .connect => True
  | .selectApplet => True
  | .activate _ _ _ => ∃ info, s.session.info = some info ∧ info.initializedCard = false
  | .setPairing pairing => ∃ info, s.session.info = some info ∧ s.IsStored info pairing
  | .resetPairing => s.session.rejected = true
  | .pair _ => ∃ info, s.session.info = some info ∧ 0 < info.freePairingSlots ∧
      s.pairings.find info.instanceUID = none
  | .openSecureChannel => ∃ info pairing, s.session.info = some info ∧
      s.session.pairing = some pairing ∧ s.IsStored info pairing
  | .authenticate _ => s.Secured ∧ s.session.pinSent = false
  | .generateMasterKey => s.Secured ∧ s.session.authenticated = true ∧
      ∃ info, s.session.info = some info ∧ info.keyUID = []
  | .exportPublicKey _ => s.Secured ∧ s.session.authenticated = true
  | .sign _ path => s.Secured ∧ s.session.authenticated = true ∧
      ∃ info key, s.session.info = some info ∧ s.IsOnCard info key ∧ key.keyPath = path
  | .unblock _ _ => s.Secured ∧
      ∃ info key, s.session.info = some info ∧ s.IsOnCard info key
  | .findPairing _ => True
  | .savePairing stored => ∃ info pairing, s.session.info = some info ∧
      s.session.pairing = some pairing ∧ s.pairings.find info.instanceUID = none ∧
      stored = ⟨info.instanceUID, pairing.pairingIndex.toNat, pairing.pairingKey⟩
  | .removePairing stored => s.session.rejected = true ∧ s.session.pairing = none ∧
      ∃ info, s.session.info = some info ∧ stored.instanceUID = info.instanceUID
  | .findKey _ => True
  | .saveKey key => key.address = encryption.address key.publicKey ∧
      (key.keyPath, key.publicKey) ∈ s.session.exported ∧
      ∃ info, s.session.info = some info ∧ key.instanceUID = info.instanceUID ∧
        (key.masterKeyUID = info.keyUID ∨ s.session.masterKey = some key.masterKeyUID)
  | .removeKey _ => True

/-- Indexes fit into a byte, and every key has the address of its public key. -/
structure WellKept (encryption : KeycardEncryption) (s : KeycardState) : Prop where
  index : ∀ pairing ∈ s.pairings.rows, 0 ≤ pairing.index ∧ pairing.index < 256
  address : ∀ key ∈ s.keys.rows, key.address = encryption.address key.publicKey

variable {encryption : KeycardEncryption} {s : KeycardState}

theorem wellKept_fresh : fresh.WellKept encryption :=
  ⟨fun _ h => (List.not_mem_nil h).elim, fun _ h => (List.not_mem_nil h).elim⟩

theorem WellKept.of_eq {s' : KeycardState} (h : s.WellKept encryption)
    (hpairings : s'.pairings = s.pairings) (hkeys : s'.keys = s.keys) :
    s'.WellKept encryption :=
  ⟨hpairings ▸ h.index, hkeys ▸ h.address⟩

/-- A message that is in turn leaves the repository well kept. -/
theorem WellKept.update {m : KeycardMessage} {a : m.Answer} (h : s.WellKept encryption)
    (hturn : s.InTurn encryption m) : (s.update m a).WellKept encryption := by
  cases m with
  | savePairing stored =>
      obtain ⟨info, pairing, -, -, -, rfl⟩ := hturn
      refine ⟨fun row hrow => ?_, h.address⟩
      rcases Table.mem_rows_save.mp hrow with rfl | ⟨hmem, -⟩
      · have hbound := pairing.pairingIndex.toNat_lt
        constructor <;> simp only <;> omega
      · exact h.index row hmem
  | removePairing stored =>
      exact ⟨fun row hrow => h.index row (Table.mem_rows_remove.mp hrow).1, h.address⟩
  | saveKey key =>
      refine ⟨h.index, fun row hrow => ?_⟩
      rcases Table.mem_rows_save.mp hrow with rfl | ⟨hmem, -⟩
      · exact hturn.1
      · exact h.address row hmem
  | removeKey key =>
      exact ⟨h.index, fun row hrow => h.address row (Table.mem_rows_remove.mp hrow).1⟩
  | selectApplet => cases a <;> exact h.of_eq rfl rfl
  | pair password => cases a <;> exact h.of_eq rfl rfl
  | openSecureChannel => cases a <;> exact h.of_eq rfl rfl
  | authenticate pin => cases a <;> exact h.of_eq rfl rfl
  | generateMasterKey => cases a <;> exact h.of_eq rfl rfl
  | exportPublicKey path => cases a <;> exact h.of_eq rfl rfl
  | connect => exact h.of_eq rfl rfl
  | activate pin puk password => exact h.of_eq rfl rfl
  | setPairing pairing => exact h.of_eq rfl rfl
  | resetPairing => exact h.of_eq rfl rfl
  | sign hash path => exact h.of_eq rfl rfl
  | unblock puk pin => exact h.of_eq rfl rfl
  | findPairing uid => exact h.of_eq rfl rfl
  | findKey address => exact h.of_eq rfl rfl

/-- Any card. -/
def anyCard (encryption : KeycardEncryption) :
    Partner KeycardMessage KeycardMessage.Answer KeycardState where
  inTurn := InTurn encryption
  answers s m a s' := s.Answers m a ∧ s' = s.update m a
  tolerates _ := False

end KeycardState

/-! ## Each function -/

namespace Keycard

open KeycardState KeycardInitializer KeycardErrorConverter

/-- Safety with any card, for programs that end in states with `ok`. -/
abbrev Proper {α : Type} (encryption : KeycardEncryption) (program : Keycard α)
    (s : KeycardState) (ok : α → KeycardState → Prop) : Prop :=
  program.Safe (anyCard encryption) (WellKept encryption) s ok fun _ _ => True

variable {encryption : KeycardEncryption} {s : KeycardState} {α : Type}

theorem send_proper (m : KeycardMessage) {ok : m.Answer → KeycardState → Prop}
    (hkept : s.WellKept encryption) (hturn : s.InTurn encryption m)
    (hok : ∀ a, s.Answers m a → (s.update m a).WellKept encryption → ok a (s.update m a)) :
    Proper encryption (send m) s ok := by
  refine ⟨hturn, ?_⟩
  rintro a s' ⟨hanswer, rfl⟩
  exact ⟨hkept.update hturn, hok a hanswer (hkept.update hturn)⟩

theorem command_proper {convert : CardFault → KeycardError} (m : KeycardMessage)
    {answer : m.Answer → Except CardFault α} {ok : α → KeycardState → Prop}
    (hkept : s.WellKept encryption) (hturn : s.InTurn encryption m)
    (hok : ∀ a value, answer a = .ok value → (s.update m a).WellKept encryption →
      ok value (s.update m a)) : Proper encryption (command convert m answer) s ok := by
  refine ⟨hturn, ?_⟩
  rintro a s' ⟨-, rfl⟩
  refine ⟨hkept.update hturn, ?_⟩
  cases hresult : answer a with
  | ok value =>
      simp only [hresult]
      exact hok a value hresult (hkept.update hturn)
  | error fault =>
      simp only [hresult]
      trivial

/-- A card is selected, and the PIN has not been shown to it. -/
structure Selected (encryption : KeycardEncryption) (info : ApplicationInfo)
    (s : KeycardState) : Prop where
  kept : s.WellKept encryption
  info_eq : s.session.info = some info
  pinSent : s.session.pinSent = false

theorem selectApplet_proper (hkept : s.WellKept encryption) (hpin : s.session.pinSent = false) :
    Proper encryption selectApplet s fun info s' =>
      Selected encryption info s' ∧ s'.keys = s.keys ∧ s'.pairings = s.pairings := by
  apply command_proper .selectApplet hkept trivial
  intro a info ha hkept'
  cases a with
  | error fault => cases ha
  | ok found =>
      cases ha
      exact ⟨⟨hkept', rfl, hpin⟩, rfl, rfl⟩

theorem findPairing_proper {instanceUID : Data} {ok : Option KeycardPairing → KeycardState → Prop}
    (hkept : s.WellKept encryption) (hok : ok (s.pairings.find instanceUID) s) :
    Proper encryption (findPairing instanceUID) s ok := by
  apply send_proper (.findPairing instanceUID) hkept trivial
  rintro a rfl -
  exact hok

theorem findKey_proper {address : Address} {ok : Option KeycardKey → KeycardState → Prop}
    (hkept : s.WellKept encryption) (hok : ok (s.keys.find address) s) :
    Proper encryption (findKey address) s ok := by
  apply send_proper (.findKey address) hkept trivial
  rintro a rfl -
  exact hok

/-- The stored pairing of the selected card is given to the command set. -/
theorem setPairing_proper {info : ApplicationInfo} {stored : KeycardPairing}
    (hselected : Selected encryption info s)
    (hfind : s.pairings.find info.instanceUID = some stored) :
    Proper encryption (setPairing stored) s fun _ s' => Selected encryption info s' ∧
      s'.keys = s.keys ∧ s'.pairings = s.pairings ∧
      ∃ pairing, s'.session.pairing = some pairing ∧ s'.IsStored info pairing := by
  obtain ⟨hmem, huid⟩ := Table.mem_of_find hfind
  have hbound := hselected.kept.index stored hmem
  have hindex : stored.index = (UInt8.ofNat stored.index.toNat).toNat := by
    rw [UInt8.toNat_ofNat']
    omega
  unfold setPairing
  rw [if_pos hbound]
  refine send_proper (.setPairing _) hselected.kept
    ⟨info, hselected.info_eq, stored, hfind, rfl, hindex⟩ ?_
  intro a _ hkept'
  exact ⟨⟨hkept', hselected.info_eq, hselected.pinSent⟩, rfl, rfl, _, rfl, stored, hfind, rfl,
    hindex⟩

/-- The channel is open and the PIN not shown yet. -/
structure Connected (encryption : KeycardEncryption) (info : ApplicationInfo)
    (s : KeycardState) : Prop extends Selected encryption info s where
  secured : s.Secured

theorem connectUsingExistingPairing_proper {info : ApplicationInfo}
    (hselected : Selected encryption info s) :
    Proper encryption (connectUsingExistingPairing info) s fun didConnect s' =>
      if didConnect then Connected encryption info s'
      else Selected encryption info s' ∧ s'.pairings.find info.instanceUID = none := by
  apply Dialogue.Safe.bind
  apply findPairing_proper hselected.kept
  cases hfind : s.pairings.find info.instanceUID with
  | none => exact ⟨hselected, hfind⟩
  | some stored =>
      apply Dialogue.Safe.bind
      refine (setPairing_proper hselected hfind).mono ?_ fun _ _ h => h
      rintro - s₁ ⟨hselected₁, -, -, pairing, hpairing, hstored⟩
      have hturn : s₁.InTurn encryption .openSecureChannel :=
        ⟨info, pairing, hselected₁.info_eq, hpairing, hstored⟩
      apply Dialogue.Safe.bind
      apply send_proper .openSecureChannel hselected₁.kept hturn
      intro a _ hkept₂
      cases a with
      | ok u =>
          exact ⟨⟨hkept₂, hselected₁.info_eq, hselected₁.pinSent⟩, rfl, info, pairing,
            hselected₁.info_eq, hpairing, hstored⟩
      | error fault =>
          simp only
          split
          · rename_i hrejected
            apply Dialogue.Safe.bind
            apply send_proper .resetPairing hkept₂ hrejected
            intro _ _ hkept₃
            apply Dialogue.Safe.bind
            have huid := (Table.mem_of_find hfind).2
            refine send_proper (.removePairing stored) hkept₃
              ⟨hrejected, rfl, info, hselected₁.info_eq, huid⟩ ?_
            intro _ _ hkept₄
            refine ⟨⟨hkept₄, hselected₁.info_eq, hselected₁.pinSent⟩, ?_⟩
            change (s₁.pairings.remove stored.instanceUID).find info.instanceUID = none
            rw [Table.find_remove, if_pos huid]
          · trivial

theorem establishNewPairing_proper {info : ApplicationInfo} {password : String}
    (hselected : Selected encryption info s)
    (hnone : s.pairings.find info.instanceUID = none) :
    Proper encryption (establishNewPairing info password) s fun _ s' =>
      Connected encryption info s' := by
  unfold establishNewPairing
  split
  · trivial
  · rename_i hslots
    apply Dialogue.Safe.bind
    refine command_proper (.pair password) hselected.kept
      ⟨info, hselected.info_eq, Nat.pos_of_ne_zero hslots, hnone⟩ ?_
    intro a pairing ha hkept₁
    cases a with
    | error fault => cases ha
    | ok granted =>
        cases ha
        apply Dialogue.Safe.bind
        refine send_proper (.savePairing _) hkept₁
          ⟨info, pairing, hselected.info_eq, rfl, hnone, rfl⟩ ?_
        intro _ _ hkept₂
        have hstored : ((s.update (.pair password) (Except.ok pairing)).update (.savePairing
            ⟨info.instanceUID, pairing.pairingIndex.toNat, pairing.pairingKey⟩) ()).IsStored
            info pairing := ⟨_, Table.find_save_self, rfl, rfl⟩
        refine command_proper .openSecureChannel hkept₂
          ⟨info, pairing, hselected.info_eq, rfl, hstored⟩ ?_
        intro a u ha hkept₃
        cases a with
        | error fault => cases ha
        | ok v =>
            exact ⟨⟨hkept₃, hselected.info_eq, hselected.pinSent⟩, rfl, info, pairing,
              hselected.info_eq, rfl, hstored⟩

/-- The card has accepted the PIN. -/
structure Authenticated (encryption : KeycardEncryption) (info : ApplicationInfo)
    (s : KeycardState) : Prop where
  kept : s.WellKept encryption
  info_eq : s.session.info = some info
  secured : s.Secured
  authenticated : s.session.authenticated = true

theorem authenticate_proper {info : ApplicationInfo} {pin : String}
    (hconnected : Connected encryption info s) :
    Proper encryption (authenticate pin) s fun _ s' =>
      Authenticated encryption info s' ∧ s'.keys = s.keys := by
  refine command_proper (.authenticate pin) hconnected.kept
    ⟨hconnected.secured, hconnected.pinSent⟩ ?_
  intro a u ha hkept
  cases a with
  | error fault => cases ha
  | ok v => exact ⟨⟨hkept, hconnected.info_eq, hconnected.secured, rfl⟩, rfl⟩

theorem generateMasterKeyIfNeeded_proper {info : ApplicationInfo}
    (hauth : Authenticated encryption info s) :
    Proper encryption (generateMasterKeyIfNeeded info) s fun masterKeyUID s' =>
      Authenticated encryption info s' ∧
        (masterKeyUID = info.keyUID ∨ s'.session.masterKey = some masterKeyUID) := by
  unfold generateMasterKeyIfNeeded
  split
  · rename_i hempty
    refine command_proper .generateMasterKey hauth.kept
      ⟨hauth.secured, hauth.authenticated, info, hauth.info_eq, hempty⟩ ?_
    intro a masterKeyUID ha hkept
    cases a with
    | error fault => cases ha
    | ok generated =>
        cases ha
        exact ⟨⟨hkept, hauth.info_eq, hauth.secured, hauth.authenticated⟩, .inr rfl⟩
  · exact ⟨hauth, .inl rfl⟩

theorem deriveKeyInKeycard_proper {info : ApplicationInfo} {pin password : String}
    {pathComponent : UInt32} (hselected : Selected encryption info s) :
    Proper encryption (deriveKeyInKeycard encryption info pin password pathComponent) s
      fun _ _ => True := by
  have hconnect : ∀ didConnect s₁,
      (if didConnect = true then Connected encryption info s₁
        else Selected encryption info s₁ ∧ s₁.pairings.find info.instanceUID = none) →
      Proper encryption (if didConnect then pure () else establishNewPairing info password) s₁
        fun _ s₂ => Connected encryption info s₂ := by
    intro didConnect s₁ hafter
    cases didConnect with
    | true => exact hafter
    | false => exact establishNewPairing_proper hafter.1 hafter.2
  apply Dialogue.Safe.bind
  refine (connectUsingExistingPairing_proper hselected).mono (fun didConnect s₁ hafter => ?_)
    fun _ _ h => h
  apply Dialogue.Safe.bind
  refine (hconnect didConnect s₁ hafter).mono (fun _ s₂ hconnected => ?_) fun _ _ h => h
  apply Dialogue.Safe.bind
  refine (authenticate_proper hconnected).mono ?_ fun _ _ h => h
  rintro - s₃ ⟨hauth, -⟩
  apply Dialogue.Safe.bind
  refine (generateMasterKeyIfNeeded_proper hauth).mono ?_ fun _ _ h => h
  rintro masterKeyUID s₄ ⟨hauth₄, hmaster⟩
  apply Dialogue.Safe.bind
  refine command_proper (.exportPublicKey (keypath pathComponent)) hauth₄.kept
    ⟨hauth₄.secured, hauth₄.authenticated⟩ ?_
  intro a publicKey ha hkept₅
  cases a with
  | error fault => cases ha
  | ok exported =>
      cases ha
      apply Dialogue.Safe.bind
      refine send_proper (.saveKey _) hkept₅
        ⟨rfl, List.mem_cons_self, info, hauth₄.info_eq, rfl, hmaster⟩ ?_
      exact fun _ _ _ => trivial

theorem prepareForPairing_proper (hkept : s.WellKept encryption)
    (hpin : s.session.pinSent = false) :
    Proper encryption prepareForPairing s fun info s' => Selected encryption info s' := by
  apply Dialogue.Safe.bind
  refine (selectApplet_proper hkept hpin).mono ?_ fun _ _ h => h
  rintro info s' ⟨hselected, -⟩
  split
  · exact hselected
  · trivial

theorem activate_proper {pin puk password : String} (hkept : s.WellKept encryption)
    (hpin : s.session.pinSent = false) :
    Proper encryption (activate pin puk password) s fun info s' => Selected encryption info s' := by
  apply Dialogue.Safe.bind
  refine (selectApplet_proper hkept hpin).mono ?_ fun _ _ h => h
  rintro info s₁ ⟨hselected, -⟩
  split
  · trivial
  · rename_i hinitialized
    apply Dialogue.Safe.bind
    refine command_proper (.activate pin puk password) hselected.kept
      ⟨info, hselected.info_eq, by simpa using hinitialized⟩ ?_
    intro _ _ _ hkept₂
    refine (selectApplet_proper hkept₂ hselected.pinSent).mono ?_ fun _ _ h => h
    exact fun _ _ h => h.1

/-- Afterwards the card is the one that the key was derived on. -/
theorem connectUsingAddress_proper {address : Address} (hkept : s.WellKept encryption)
    (hpin : s.session.pinSent = false) :
    Proper encryption (connectUsingAddress address) s fun key s' =>
      ∃ info, Connected encryption info s' ∧ s'.IsOnCard info key ∧ key.address = address := by
  apply Dialogue.Safe.bind
  apply findKey_proper hkept
  cases hfind : s.keys.find address with
  | none => trivial
  | some key =>
      obtain ⟨hmem, haddress⟩ := Table.mem_of_find hfind
      apply Dialogue.Safe.bind
      refine (selectApplet_proper hkept hpin).mono ?_ fun _ _ h => h
      rintro info s₁ ⟨hselected, hkeys, -⟩
      split
      · trivial
      · rename_i huid
        split
        · trivial
        · rename_i hmaster
          apply Dialogue.Safe.bind
          apply findPairing_proper hselected.kept
          cases hpairing : s₁.pairings.find key.instanceUID with
          | none => trivial
          | some stored =>
              rw [← not_not.mp huid] at hpairing
              apply Dialogue.Safe.bind
              refine (setPairing_proper hselected hpairing).mono ?_ fun _ _ h => h
              rintro - s₂ ⟨hselected₂, hkeys₂, -, pairing, hset, hstored⟩
              apply Dialogue.Safe.bind
              refine command_proper .openSecureChannel hselected₂.kept
                ⟨info, pairing, hselected₂.info_eq, hset, hstored⟩ ?_
              intro a u ha hkept₃
              cases a with
              | error fault => cases ha
              | ok v =>
                  have honCard : s₂.IsOnCard info key := by
                    refine ⟨?_, (not_not.mp huid).symm, (not_not.mp hmaster).symm⟩
                    rw [hkeys₂, hkeys]
                    exact hmem
                  exact ⟨info, ⟨⟨hkept₃, hselected₂.info_eq, hselected₂.pinSent⟩, rfl, info,
                    pairing, hselected₂.info_eq, hset, hstored⟩, honCard, haddress⟩

/-- What is returned is a signature of the hash by the address. -/
theorem sign_proper {hash : Data} {address : Address} {pin : String}
    (hkept : s.WellKept encryption) (hpin : s.session.pinSent = false) :
    Proper encryption (KeycardInitializer.sign encryption hash address pin) s fun signature _ =>
      encryption.recoveredAddress signature hash = some address := by
  apply Dialogue.Safe.bind
  refine (connectUsingAddress_proper hkept hpin).mono ?_ fun _ _ h => h
  rintro key s₁ ⟨info, hconnected, honCard, -⟩
  apply Dialogue.Safe.bind
  refine (authenticate_proper hconnected).mono ?_ fun _ _ h => h
  rintro - s₂ ⟨hauth, hkeys⟩
  have honCard₂ : s₂.IsOnCard info key := ⟨hkeys ▸ honCard.1, honCard.2⟩
  apply Dialogue.Safe.bind
  refine command_proper (.sign hash key.keyPath) hauth.kept
    ⟨hauth.secured, hauth.authenticated, info, key, hauth.info_eq, honCard₂, rfl⟩ ?_
  intro _ signature _ _
  split
  · trivial
  · rename_i recovered hrecovered
    split
    · rename_i heq
      exact heq ▸ hrecovered
    · trivial

theorem unblock_proper {puk pin : String} {address : Address} (hkept : s.WellKept encryption)
    (hpin : s.session.pinSent = false) :
    Proper encryption (KeycardInitializer.unblock puk pin address) s fun _ _ => True := by
  apply Dialogue.Safe.bind
  refine (connectUsingAddress_proper hkept hpin).mono ?_ fun _ _ h => h
  rintro key s₁ ⟨info, hconnected, honCard, -⟩
  refine command_proper (.unblock puk pin) hconnected.kept
    ⟨hconnected.secured, info, key, hconnected.info_eq, honCard⟩ ?_
  exact fun _ _ _ _ => trivial

theorem runOnKeycard_proper {operation : Keycard α} {ok : α → KeycardState → Prop}
    (hkept : s.WellKept encryption) (hoperation : ∀ s', s'.WellKept encryption →
      s'.session.pinSent = false → Proper encryption operation s' ok) :
    Proper encryption (KeycardHardwareService.runOnKeycard operation) s ok := by
  apply Dialogue.Safe.bind
  apply send_proper .connect hkept trivial
  intro a _ hkept'
  cases a with
  | ok u => exact hoperation _ hkept' rfl
  | error fault => cases fault <;> trivial

theorem forgetKey_proper {address : Address} (hkept : s.WellKept encryption) :
    Proper encryption (KeycardHardwareService.forgetKey address) s fun _ _ => True := by
  apply Dialogue.Safe.bind
  apply findKey_proper hkept
  cases s.keys.find address with
  | none => trivial
  | some key => exact send_proper (.removeKey key) hkept trivial fun _ _ _ => trivial

end Keycard

/-! ## Whole runs -/

namespace KeycardHardwareService

open KeycardState Keycard

/-- The calls that can come. -/
inductive Starts (encryption : KeycardEncryption) : Keycard Unit → Prop
  | pair (password pin : String) (pathComponent : UInt32) :
      Starts encryption (pair encryption password pin pathComponent >>= fun _ => pure ())
  | initializeCard (pin puk password : String) (pathComponent : UInt32) :
      Starts encryption
        (initializeCard encryption pin puk password pathComponent >>= fun _ => pure ())
  | sign (hash : Data) (address : Address) (pin : String) :
      Starts encryption (sign encryption hash address pin >>= fun _ => pure ())
  | unblock (puk pin : String) (address : Address) : Starts encryption (unblock puk pin address)
  | forgetKey (address : Address) : Starts encryption (forgetKey address)

/-- The service with any card. The card may be gone at any point, and the call with it. -/
def service (encryption : KeycardEncryption) :
    Service KeycardMessage KeycardMessage.Answer KeycardState KeycardError where
  partner := anyCard encryption
  starts _ p := Starts encryption p
  cuts s s' := s' = s.disconnected

variable {encryption : KeycardEncryption} {s : KeycardState}

theorem starts_proper {p : Keycard Unit} (hstart : Starts encryption p)
    (hkept : s.WellKept encryption) : Proper encryption p s fun _ _ => True := by
  cases hstart with
  | pair password pin pathComponent =>
      apply Dialogue.Safe.bind
      refine @runOnKeycard_proper _ _ _ _ (fun _ _ => True) hkept fun s' hkept' hpin => ?_
      apply Dialogue.Safe.bind
      refine (prepareForPairing_proper hkept' hpin).mono ?_ fun _ _ h => h
      exact fun info s'' hselected => deriveKeyInKeycard_proper hselected
  | initializeCard pin puk password pathComponent =>
      apply Dialogue.Safe.bind
      refine @runOnKeycard_proper _ _ _ _ (fun _ _ => True) hkept fun s' hkept' hpin => ?_
      apply Dialogue.Safe.bind
      refine (activate_proper hkept' hpin).mono ?_ fun _ _ h => h
      exact fun info s'' hselected => deriveKeyInKeycard_proper hselected
  | sign hash address pin =>
      apply Dialogue.Safe.bind
      refine runOnKeycard_proper hkept fun s' hkept' hpin => ?_
      exact (sign_proper hkept' hpin).mono (fun _ _ _ => trivial) fun _ _ h => h
  | unblock puk pin address =>
      exact runOnKeycard_proper hkept fun s' hkept' hpin => unblock_proper hkept' hpin
  | forgetKey address => exact forgetKey_proper hkept

/-- In every run since the installation, with any cards and cut off anywhere, the keys have
the addresses of their public keys, the program stops at no trap, and each message comes
in turn. -/
theorem keycard_inTurn {c : Option (Keycard Unit) × KeycardState}
    (hruns : (service encryption).Runs (none, fresh) c) :
    c.2.WellKept encryption ∧ (∀ reason, c.1 ≠ some (.trap reason)) ∧
      ∀ m next, c.1 = some (.say m next) → c.2.InTurn encryption m := by
  obtain ⟨hkept, hsafe⟩ := @Service.inv_of_runs _ _ _ _ (service encryption)
    (WellKept encryption) (fun s p hstart hkept => starts_proper hstart hkept)
    (fun s s' (hend : s' = s.disconnected) hkept => hend ▸ hkept.of_eq rfl rfl)
    _ _ hruns wellKept_fresh
  refine ⟨hkept, fun reason htrap => hsafe _ htrap, ?_⟩
  exact fun m next hsay => (hsafe _ hsay).1

section Example

/-- A card without a master key. -/
def newCard : ApplicationInfo where
  instanceUID := [1]
  freePairingSlots := 5
  keyUID := []
  initializedCard := true

/-- The pairing that it grants. -/
def granted : Pairing := ⟨[7], 0⟩

/-- All keys have one address. -/
def anyEncryption : KeycardEncryption := ⟨fun _ => .zero, fun _ _ => none⟩

/-- The channel was opened with the pairing that the card has granted. -/
def pairedState : KeycardState where
  pairings := Table.empty.save ⟨[1], 0, [7]⟩
  keys := .empty
  session := { info := some newCard, pairing := some granted, channelOpen := true }

/-- During the first pairing the PIN is shown in turn. -/
theorem pairedState_inTurn : pairedState.InTurn anyEncryption (.authenticate "123456") := by
  have hruns : ∃ next, (service anyEncryption).Runs (none, fresh)
      (some (.say (.authenticate "123456") next), pairedState) := by
    have hstart : (service anyEncryption).Runs (none, fresh)
        (some (pair anyEncryption "safe" "123456" 0 >>= fun _ => pure ()), fresh) :=
      .single (.start (.pair "safe" "123456" 0))
    have hconnected := hstart.tail (.say (a := Except.ok ()) ⟨trivial, rfl⟩)
    have hselected := hconnected.tail (.say (a := Except.ok newCard) ⟨trivial, rfl⟩)
    have hfound := hselected.tail
      (@Service.Step.say _ _ _ _ (service anyEncryption) _ _ (.findPairing [1]) _ none ⟨rfl, rfl⟩)
    have hgranted := hfound.tail (.say (a := Except.ok granted) ⟨trivial, rfl⟩)
    have hsaved := hgranted.tail (.say (a := ()) ⟨trivial, rfl⟩)
    have hopened := hsaved.tail (.say (a := Except.ok ()) ⟨trivial, rfl⟩)
    exact ⟨_, hopened⟩
  obtain ⟨next, hruns⟩ := hruns
  exact (keycard_inTurn hruns).2.2 _ next rfl

end Example

end KeycardHardwareService

end SafeWallet
