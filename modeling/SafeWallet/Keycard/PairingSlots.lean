/-
# Pairing slots

A card has few slots for pairings, and the program cannot free them. It keeps its
pairings even when a key is forgotten, and pairs again only when the card has rejected
the stored pairing. With cards that accept the pairings they have granted, a card has
therefore at most one slot in use by the program, apart from the pairings that were
granted while the connection broke off or the program was stopped.
-/

import SafeWallet.Keycard.KeycardProtocol

namespace SafeWallet

namespace KeycardPairing

/-- The stored form of a pairing. -/
def Matches (stored : KeycardPairing) (pairing : Pairing) : Prop :=
  stored.key = pairing.pairingKey ∧ stored.index = pairing.pairingIndex.toNat

theorem Matches.unique {stored : KeycardPairing} {first second : Pairing}
    (hfirst : stored.Matches first) (hsecond : stored.Matches second) : first = second := by
  obtain ⟨key₁, index₁⟩ := first
  obtain ⟨key₂, index₂⟩ := second
  have hindex : index₁.toNat = index₂.toNat := by
    have h := hfirst.2.symm.trans hsecond.2
    exact_mod_cast h
  cases hfirst.1.symm.trans hsecond.1
  cases UInt8.toNat_inj.mp hindex
  rfl

end KeycardPairing

/-- The program and the cards of the user: which pairings take a slot on which card, how
many of them were granted but not stored, which card is there, and the pairing that was
granted last and is not stored yet. -/
structure CardsState where
  program : KeycardState
  slots : Data → List Pairing
  unstored : Data → ℕ
  present : Data
  granted : Option Pairing

namespace CardsState

open KeycardErrorConverter

/-- A card gives a slot to a new pairing. -/
def grant (s : CardsState) (program : KeycardState) (pairing : Pairing)
    (granted : Option Pairing) : CardsState where
  program := program
  slots := Function.update s.slots s.present (pairing :: s.slots s.present)
  unstored := Function.update s.unstored s.present (s.unstored s.present + 1)
  present := s.present
  granted := granted

/-- The pairing granted last is stored. -/
def store (s : CardsState) (program : KeycardState) : CardsState where
  program := program
  slots := s.slots
  unstored := Function.update s.unstored s.present (s.unstored s.present - 1)
  present := s.present
  granted := none

/-- A card selects itself and grants new pairings, also when its answer is lost. It is assumed
to reject a pairing, when the channel is opened, only if the pairing has no slot: the program
takes `dataInvalid` and `invalidAuthData` for a rejection as well, and a card that answers so to
a pairing it holds would lose a further slot. -/
def CardAnswers (s : CardsState) : (m : KeycardMessage) → m.Answer → CardsState → Prop
  | .connect, a, s' => ∃ uid,
      s' = { s with program := s.program.update .connect a, present := uid, granted := none }
  | .selectApplet, a, s' => (∀ info, a = Except.ok info → info.instanceUID = s.present) ∧
      s' = { s with program := s.program.update .selectApplet a }
  | .pair password, Except.ok pairing, s' => pairing ∉ s.slots s.present ∧
      s' = s.grant (s.program.update (.pair password) (Except.ok pairing)) pairing (some pairing)
  | .pair password, Except.error fault, s' =>
      s' = { s with program := s.program.update (.pair password) (Except.error fault) } ∨
      ∃ pairing,
        s' = s.grant (s.program.update (.pair password) (Except.error fault)) pairing s.granted
  | .openSecureChannel, a, s' => (∀ fault, a = Except.error fault →
        isPairingWithExistingDataFailed fault = true →
        ∀ pairing, s.program.session.pairing = some pairing → pairing ∉ s.slots s.present) ∧
      s' = { s with program := s.program.update .openSecureChannel a }
  | .savePairing stored, a, s' => s' = s.store (s.program.update (.savePairing stored) a)
  | m, a, s' => s' = { s with program := s.program.update m a }

/-- The session ends; before the next one the user may unpair devices at the cards. -/
def Ends (s s' : CardsState) : Prop :=
  s'.program = s.program.disconnected ∧ s'.unstored = s.unstored ∧ s'.granted = none ∧
    ∀ uid, (s'.slots uid).Sublist (s.slots uid)

/-- The pairing stored for a card has a slot there. -/
def HasSlot (s : CardsState) (uid : Data) : Prop :=
  ∃ stored pairing, s.program.pairings.find uid = some stored ∧ stored.Matches pairing ∧
    pairing ∈ s.slots uid

/-- The slots are accounted for. -/
structure Accounted (s : CardsState) : Prop where
  present : ∀ info, s.program.session.info = some info → info.instanceUID = s.present
  pairing : ∀ pairing, s.program.session.pairing = some pairing →
    (∃ stored, s.program.pairings.find s.present = some stored ∧ stored.Matches pairing) ∨
      s.granted = some pairing
  granted : ∀ pairing, s.granted = some pairing →
    pairing ∈ s.slots s.present ∧ 0 < s.unstored s.present
  rejected : s.program.session.rejected = true →
    ∃ stored, s.program.pairings.find s.present = some stored ∧
      ∀ pairing, stored.Matches pairing → pairing ∉ s.slots s.present
  free : ∀ uid, ¬ s.HasSlot uid → (s.slots uid).length ≤ s.unstored uid
  taken : ∀ uid, (s.slots uid).length ≤ s.unstored uid + 1

variable {encryption : KeycardEncryption} {s s' : CardsState}

/-- Calls that change neither the stored pairings nor what the session knows of them. -/
theorem Accounted.of_same {program : KeycardState} (h : s.Accounted)
    (hinfo : program.session.info = s.program.session.info)
    (hpairing : program.session.pairing = s.program.session.pairing)
    (hrejected : program.session.rejected = s.program.session.rejected)
    (hpairings : program.pairings = s.program.pairings) :
    Accounted { s with program := program } where
  present info hsome := h.present info (hinfo ▸ hsome)
  pairing p hsome := hpairings ▸ h.pairing p (hpairing ▸ hsome)
  granted := h.granted
  rejected htrue := hpairings ▸ h.rejected (hrejected ▸ htrue)
  free uid hnone := by
    refine h.free uid fun hslot => hnone ?_
    obtain ⟨stored, pairing, hfind, hmatches, hmem⟩ := hslot
    exact ⟨stored, pairing, hpairings ▸ hfind, hmatches, hmem⟩
  taken := h.taken

/-- A card that has no stored pairing may grant one. -/
theorem Accounted.grant {program : KeycardState} {pairing : Pairing} {granted : Option Pairing}
    (h : s.Accounted) (hnone : s.program.pairings.find s.present = none)
    (hinfo : program.session.info = s.program.session.info)
    (hrejected : program.session.rejected = s.program.session.rejected)
    (hpairings : program.pairings = s.program.pairings)
    (hpairing : ∀ p, program.session.pairing = some p →
      (∃ stored, s.program.pairings.find s.present = some stored ∧ stored.Matches p) ∨
        granted = some p)
    (hgranted : ∀ p, granted = some p → p ∈ pairing :: s.slots s.present) :
    (s.grant program pairing granted).Accounted where
  present info hsome := h.present info (hinfo ▸ hsome)
  pairing p hsome := hpairings ▸ hpairing p hsome
  granted p hsome := by
    refine ⟨?_, ?_⟩
    · simpa [CardsState.grant] using hgranted p hsome
    · simp [CardsState.grant]
  rejected htrue := by
    obtain ⟨stored, hfind, -⟩ := h.rejected (hrejected ▸ htrue)
    cases hnone.symm.trans hfind
  free uid hslot := by
    by_cases huid : uid = s.present
    · subst huid
      have hfree := h.free s.present fun ⟨stored, _, hfind, _⟩ => by
        cases hnone.symm.trans hfind
      simpa [CardsState.grant] using hfree
    · have hfree := h.free uid fun ⟨stored, p, hfind, hmatches, hmem⟩ => hslot
        ⟨stored, p, hpairings ▸ hfind, hmatches, by simpa [CardsState.grant, huid] using hmem⟩
      simpa [CardsState.grant, huid] using hfree
  taken uid := by
    by_cases huid : uid = s.present
    · subst huid
      simpa [CardsState.grant] using h.taken s.present
    · simpa [CardsState.grant, huid] using h.taken uid

/-- The granted pairing is stored. -/
theorem Accounted.save {stored : KeycardPairing} (h : s.Accounted)
    (hturn : s.program.InTurn encryption (.savePairing stored)) :
    (s.store (s.program.update (.savePairing stored) ())).Accounted := by
  obtain ⟨info, p, hinfo, hpairing, hnone, rfl⟩ := hturn
  have huid := h.present info hinfo
  rw [huid] at hnone
  have hgranted : s.granted = some p := by
    rcases h.pairing p hpairing with ⟨stored, hfind, -⟩ | hgranted
    · cases hnone.symm.trans hfind
    · exact hgranted
  obtain ⟨hmem, hpos⟩ := h.granted p hgranted
  have hfind : (s.program.pairings.save
      ⟨info.instanceUID, p.pairingIndex.toNat, p.pairingKey⟩).find s.present =
        some ⟨info.instanceUID, p.pairingIndex.toNat, p.pairingKey⟩ := by
    rw [← huid]
    exact Table.find_save_self
  have hfree := h.free s.present fun ⟨_, _, hfound, _⟩ => by cases hnone.symm.trans hfound
  refine ⟨h.present, fun q hq => ?_, fun q hq => (by cases hq), fun htrue => ?_,
    fun uid hslot => ?_, fun uid => ?_⟩
  · cases hpairing.symm.trans hq
    exact .inl ⟨_, hfind, rfl, rfl⟩
  · obtain ⟨stored, hfound, -⟩ := h.rejected htrue
    cases hnone.symm.trans hfound
  · by_cases heq : uid = s.present
    · subst heq
      exact (hslot ⟨_, p, hfind, ⟨rfl, rfl⟩, hmem⟩).elim
    · have hother := h.free uid fun ⟨stored, q, hfound, hmatches, hq⟩ => hslot
        ⟨stored, q, (Table.find_save.trans (if_neg (huid ▸ Ne.symm heq))).trans hfound,
          hmatches, hq⟩
      simpa [store, heq] using hother
  · by_cases heq : uid = s.present
    · subst heq
      simp only [store, Function.update_self]
      omega
    · simpa [store, heq] using h.taken uid

/-- A rejected pairing is removed. -/
theorem Accounted.remove {stored : KeycardPairing} (h : s.Accounted)
    (hturn : s.program.InTurn encryption (.removePairing stored)) :
    Accounted { s with program := s.program.update (.removePairing stored) () } := by
  obtain ⟨hrejected, hpairing, info, hinfo, huid⟩ := hturn
  rw [h.present info hinfo] at huid
  obtain ⟨row, hrow, hslots⟩ := h.rejected hrejected
  refine ⟨h.present, fun p hp => ?_, h.granted, fun htrue => (by cases htrue),
    fun uid hslot => ?_, h.taken⟩
  · cases hpairing.symm.trans hp
  · by_cases heq : uid = s.present
    · subst heq
      refine h.free s.present fun ⟨found, p, hfind, hmatches, hmem⟩ => ?_
      cases hrow.symm.trans hfind
      exact hslots p hmatches hmem
    · refine h.free uid fun ⟨found, p, hfind, hmatches, hmem⟩ =>
        hslot ⟨found, p, ?_, hmatches, hmem⟩
      exact (Table.find_remove.trans (if_neg (huid ▸ Ne.symm heq))).trans hfind

/-- The channel is opened, or the pairing that the card has forgotten is rejected. -/
theorem Accounted.open {a : Except CardFault Unit} (h : s.Accounted)
    (hturn : s.program.InTurn encryption .openSecureChannel)
    (hrejects : ∀ fault, a = .error fault → isPairingWithExistingDataFailed fault = true →
      ∀ p, s.program.session.pairing = some p → p ∉ s.slots s.present) :
    Accounted { s with program := s.program.update .openSecureChannel a } := by
  cases a with
  | ok u => exact h.of_same rfl rfl rfl rfl
  | error fault =>
      obtain ⟨info, p, hinfo, hpairing, stored, hfind, hmatches⟩ := hturn
      rw [h.present info hinfo] at hfind
      refine ⟨h.present, h.pairing, h.granted, fun htrue => ⟨stored, hfind, fun q hq => ?_⟩,
        h.free, h.taken⟩
      cases hq.unique hmatches
      exact hrejects fault rfl htrue p hpairing

/-- Every call that is in turn keeps the account. -/
theorem Accounted.answers {m : KeycardMessage} {a : m.Answer} (h : s.Accounted)
    (hturn : s.program.InTurn encryption m) (hanswer : s.CardAnswers m a s') :
    s'.Accounted ∧ s'.program = s.program.update m a := by
  cases m with
  | connect =>
      obtain ⟨uid, rfl⟩ := hanswer
      exact ⟨⟨fun _ h => (by cases h), fun _ h => (by cases h), fun _ h => (by cases h),
        fun h => (by cases h), h.free, h.taken⟩, rfl⟩
  | selectApplet =>
      obtain ⟨huid, rfl⟩ := hanswer
      cases a with
      | error fault => exact ⟨h.of_same rfl rfl rfl rfl, rfl⟩
      | ok info =>
          refine ⟨⟨fun found hfound => ?_, h.pairing, h.granted, h.rejected, h.free, h.taken⟩, rfl⟩
          cases hfound
          exact huid info rfl
  | pair password =>
      obtain ⟨info, hinfo, -, hnone⟩ := hturn
      rw [h.present info hinfo] at hnone
      cases a with
      | ok pairing =>
          obtain ⟨-, rfl⟩ := hanswer
          refine ⟨h.grant hnone rfl rfl rfl (fun p hp => .inr hp) fun p hp => ?_, rfl⟩
          cases hp
          exact List.mem_cons_self
      | error fault =>
          rcases hanswer with rfl | ⟨pairing, rfl⟩
          · exact ⟨h.of_same rfl rfl rfl rfl, rfl⟩
          · exact ⟨h.grant hnone rfl rfl rfl h.pairing fun p hp =>
              List.mem_cons_of_mem _ (h.granted p hp).1, rfl⟩
  | setPairing pairing =>
      cases hanswer
      obtain ⟨info, hinfo, stored, hfind, hmatches⟩ := hturn
      rw [h.present info hinfo] at hfind
      refine ⟨⟨h.present, fun p hp => ?_, h.granted, h.rejected, h.free, h.taken⟩, rfl⟩
      cases hp
      exact .inl ⟨stored, hfind, hmatches⟩
  | resetPairing =>
      cases hanswer
      exact ⟨⟨h.present, fun _ hp => (by cases hp), h.granted, h.rejected, h.free, h.taken⟩,
        rfl⟩
  | openSecureChannel =>
      obtain ⟨hrejects, rfl⟩ := hanswer
      exact ⟨h.open hturn hrejects, rfl⟩
  | savePairing stored =>
      cases hanswer
      exact ⟨h.save hturn, rfl⟩
  | removePairing stored =>
      cases hanswer
      exact ⟨h.remove hturn, rfl⟩
  | authenticate pin =>
      cases hanswer
      cases a <;> exact ⟨h.of_same rfl rfl rfl rfl, rfl⟩
  | generateMasterKey =>
      cases hanswer
      cases a <;> exact ⟨h.of_same rfl rfl rfl rfl, rfl⟩
  | exportPublicKey path =>
      cases hanswer
      cases a <;> exact ⟨h.of_same rfl rfl rfl rfl, rfl⟩
  | activate pin puk password => exact hanswer ▸ ⟨h.of_same rfl rfl rfl rfl, rfl⟩
  | sign hash path => exact hanswer ▸ ⟨h.of_same rfl rfl rfl rfl, rfl⟩
  | unblock puk pin => exact hanswer ▸ ⟨h.of_same rfl rfl rfl rfl, rfl⟩
  | findPairing uid => exact hanswer ▸ ⟨h.of_same rfl rfl rfl rfl, rfl⟩
  | findKey address => exact hanswer ▸ ⟨h.of_same rfl rfl rfl rfl, rfl⟩
  | saveKey key => exact hanswer ▸ ⟨h.of_same rfl rfl rfl rfl, rfl⟩
  | removeKey key => exact hanswer ▸ ⟨h.of_same rfl rfl rfl rfl, rfl⟩

/-- Unpairing at the cards frees slots. -/
theorem Accounted.ends (h : s.Accounted) (hends : s.Ends s') : s'.Accounted := by
  obtain ⟨hprogram, hunstored, hgranted, hslots⟩ := hends
  have hpairings : s'.program.pairings = s.program.pairings := by rw [hprogram]; rfl
  refine ⟨fun _ hsome => ?_, fun _ hsome => ?_, fun _ hsome => ?_, fun htrue => ?_,
    fun uid hslot => ?_, fun uid => ?_⟩
  · rw [hprogram] at hsome
    cases hsome
  · rw [hprogram] at hsome
    cases hsome
  · rw [hgranted] at hsome
    cases hsome
  · rw [hprogram] at htrue
    cases htrue
  · rw [hunstored]
    by_cases hbefore : s.HasSlot uid
    · obtain ⟨stored, p, hfind, hmatches, hmem⟩ := hbefore
      -- the stored pairing is among those that were unpaired
      have hgone : p ∉ s'.slots uid := fun hmem' =>
        hslot ⟨stored, p, hpairings ▸ hfind, hmatches, hmem'⟩
      have hne : (s'.slots uid).length ≠ (s.slots uid).length := fun heq =>
        hgone ((hslots uid).eq_of_length heq ▸ hmem)
      have hle := (hslots uid).length_le
      have htaken := h.taken uid
      omega
    · exact (hslots uid).length_le.trans (h.free uid hbefore)
  · rw [hunstored]
    exact (hslots uid).length_le.trans (h.taken uid)

/-- Cards that reject no pairing they hold. -/
def faithfulCards (encryption : KeycardEncryption) :
    Partner KeycardMessage KeycardMessage.Answer CardsState where
  inTurn s := s.program.InTurn encryption
  answers s m a s' := s.program.Answers m a ∧ s.CardAnswers m a s'
  tolerates _ := False

/-- Nothing is stored, and no slot is in use by the program. -/
def unused (present : Data) : CardsState := ⟨.fresh, fun _ => [], fun _ => 0, present, none⟩

theorem accounted_unused (present : Data) : (unused present).Accounted :=
  ⟨fun _ h => (by cases h), fun _ h => (by cases h), fun _ h => (by cases h),
    fun h => (by cases h), fun _ _ => le_rfl, fun _ => Nat.zero_le _⟩

end CardsState

namespace KeycardHardwareService

open CardsState

/-- The service with cards that reject no pairing they hold. -/
def cardsService (encryption : KeycardEncryption) :
    Service KeycardMessage KeycardMessage.Answer CardsState KeycardError where
  partner := faithfulCards encryption
  starts _ p := Starts encryption p
  cuts := Ends

/-- In every run with cards that reject no pairing they hold, a card has at most one slot in use
by the program, apart from the pairings that were granted and never stored. -/
theorem slots_le_of_runs {encryption : KeycardEncryption} {present : Data}
    {c : Option (Keycard Unit) × CardsState}
    (hruns : (cardsService encryption).Runs (none, unused present) c) (uid : Data) :
    (c.2.slots uid).length ≤ c.2.unstored uid + 1 := by
  have hstarts : ∀ s p, (cardsService encryption).starts s p →
      s.program.WellKept encryption ∧ s.Accounted →
      p.Safe (faithfulCards encryption) (fun s => s.program.WellKept encryption ∧ s.Accounted) s
        (fun _ _ => True) fun _ _ => True := by
    rintro s p hstart ⟨hkept, haccounted⟩
    refine Dialogue.Safe.refine (f := CardsState.program) (fun _ _ h => h) (fun _ h => h) ?_
      (starts_proper hstart hkept) hkept haccounted
    rintro s m a s' hturn ⟨hanswer, hcard⟩ - haccounted
    obtain ⟨haccounted', hprogram⟩ := haccounted.answers hturn hcard
    exact ⟨⟨hanswer, hprogram⟩, haccounted'⟩
  have hends : ∀ s s', (cardsService encryption).cuts s s' →
      s.program.WellKept encryption ∧ s.Accounted →
      s'.program.WellKept encryption ∧ s'.Accounted := by
    rintro s s' hends ⟨hkept, haccounted⟩
    exact ⟨hends.1 ▸ hkept.of_eq rfl rfl, haccounted.ends hends⟩
  exact (Service.inv_of_runs hstarts hends hruns
    ⟨KeycardState.wellKept_fresh, accounted_unused present⟩).1.2.taken uid

section Example

/-- The card is connected and selected, and no pairing is stored for it. -/
def selectedCards : CardsState :=
  { unused [1] with program := ((KeycardState.fresh.update .connect (Except.ok ())).update
      .selectApplet (Except.ok newCard)).update (.findPairing [1]) none }

/-- It has granted the first pairing. -/
def pairedCards : CardsState :=
  selectedCards.grant (selectedCards.program.update (.pair "safe") (Except.ok granted)) granted
    (some granted)

theorem pairedCards_slots : (pairedCards.slots [1]).length ≤ pairedCards.unstored [1] + 1 := by
  have hruns : ∃ p, (cardsService anyEncryption).Runs (none, unused [1]) (p, pairedCards) := by
    have hstart : (cardsService anyEncryption).Runs (none, unused [1])
        (some (pair anyEncryption "safe" "123456" 0 >>= fun _ => pure ()), unused [1]) :=
      .single (.start (.pair "safe" "123456" 0))
    have hconnected := hstart.tail (.say (a := Except.ok ()) ⟨trivial, [1], rfl⟩)
    have hselected := hconnected.tail
      (.say (a := Except.ok newCard) ⟨trivial, fun info h => (by cases h; rfl), rfl⟩)
    have hfound := hselected.tail (@Service.Step.say _ _ _ _ (cardsService anyEncryption) _ _
      (.findPairing [1]) _ none ⟨rfl, rfl⟩)
    have hgranted := hfound.tail (@Service.Step.say _ _ _ _ (cardsService anyEncryption) _
      pairedCards (.pair "safe") _ (Except.ok granted) ⟨trivial, List.not_mem_nil, rfl⟩)
    exact ⟨_, hgranted⟩
  obtain ⟨p, hruns⟩ := hruns
  exact slots_le_of_runs hruns [1]

end Example

end KeycardHardwareService

end SafeWallet
