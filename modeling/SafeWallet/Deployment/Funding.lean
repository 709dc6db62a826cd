/-
# What a deployment must have seen

The contract of a wallet costs a fee, which the user pays in advance. Two states of the
wallet wait for it, two repeaters ask for the balance, and one of the states reads the
amount back from the account where a repeater has put it. Whether the fee has arrived
is therefore a question about the record of a run: every request to create a contract
needs a balance that was seen since the wallet last began to wait, and a wallet that
becomes ready needs a receipt or a block.

The handlers of the service do not look at the state of the wallet they are given, and the
synchronisation writes into the same accounts without looking at it either. `Orderly` is what
they leave to chance. The invariant of the states that orderly actions reach is stated here,
with one lemma for each kind of action.
-/

import SafeWallet.Deployment.DeploymentService

namespace SafeWallet

/-- What is paid where: the address of the contract, the token and the fee. -/
structure DeploymentTerms where
  address : Option Address
  feePaymentTokenAddress : Option Address
  minimumDeploymentTransactionAmount : Option ℤ
  deriving DecidableEq, Repr

/-- The terms of a wallet's deployment. -/
def Wallet.terms (wallet : Wallet) : DeploymentTerms where
  address := wallet.address
  feePaymentTokenAddress := wallet.feePaymentTokenAddress
  minimumDeploymentTransactionAmount := wallet.minimumDeploymentTransactionAmount

namespace DeploymentDomainService

/-! ## Reading the record -/

/-- The wallet begins to wait for its first deposit. -/
def entering (walletID : WalletID) : Observation → Option Wallet
  | .saved previous wallet =>
    if wallet.id = walletID ∧ wallet.state = .waitingForFirstDeposit ∧
        previous ≠ some .waitingForFirstDeposit then some wallet
    else none
  | _ => none

/-- The wallet is saved. -/
def saving (walletID : WalletID) : Observation → Option Wallet
  | .saved _ wallet => if wallet.id = walletID then some wallet else none
  | _ => none

/-- The wallet as it was each time it began to wait, the last time first. -/
def entered (walletID : WalletID) (log : List Observation) : List Wallet :=
  log.filterMap (entering walletID)

/-- The record since the wallet last began to wait. -/
def sinceEntered (walletID : WalletID) (log : List Observation) : List Observation :=
  log.takeWhile fun observation => (entering walletID observation).isNone

/-- The wallet as it was last saved. -/
def lastSaved (walletID : WalletID) (log : List Observation) : Option Wallet :=
  log.findSome? (saving walletID)

/-! ## What must have been seen -/

/-- A balance was seen at the wallet's address, in its token, that covers its fee. -/
def Funded (wallet : Wallet) (log : List Observation) : Prop :=
  ∃ (object : Wallet) (amount : ℕ) (minimum : ℤ), .balance object amount ∈ log ∧
    object.id = wallet.id ∧ object.terms = wallet.terms ∧
    wallet.minimumDeploymentTransactionAmount = some minimum ∧ minimum ≤ amount

/-- The wallet has waited for its first deposit, and since it last began to, a balance was
seen that covers its fee. -/
def FundedSinceEntered (walletID : WalletID) (log : List Observation) : Prop :=
  entered walletID log ≠ [] ∧
    ∃ wallet, lastSaved walletID log = some wallet ∧ Funded wallet (sinceEntered walletID log)

/-- The creation of the wallet's contract is known to have succeeded: there is a receipt
of its transaction, and the wallet was waiting for it, or there is a block. -/
def Finished (previous : Option WalletState) (wallet : Wallet) (log : List Observation) : Prop :=
  (previous = some .finalizingDeployment ∧ ∃ object, .receipt object true ∈ log ∧
    object.id = wallet.id ∧ object.creationTransactionHash = wallet.creationTransactionHash) ∨
  ∃ object, .block object ∈ log ∧ object.id = wallet.id ∧ object.address = wallet.address

/-- No creation is requested for a wallet that is not funded. -/
def NeverUnfunded (log : List Observation) : Prop :=
  ∀ walletID earlier, (.requestedCreation walletID :: earlier) <:+ log →
    FundedSinceEntered walletID earlier

/-- No wallet becomes ready before its contract is there. -/
def NeverUnfinished (log : List Observation) : Prop :=
  ∀ previous wallet earlier, (.saved previous wallet :: earlier) <:+ log →
    wallet.state = .readyToUse → previous ≠ some .readyToUse → Finished previous wallet earlier

/-! ## Orderly actions -/

/-- The stored wallet is in the state of an object and, while the fee is due, on its
terms. -/
def Agrees (app : App) (object : Wallet) : Prop :=
  ∃ stored, app.store.wallets.find object.id = some stored ∧ stored.state = object.state ∧
    (object.state.isFunding = true → stored.terms = object.terms)

/-- Objects that are saved or used for a balance are up to date, a contract is asked for and
created in the state that the event announces, and no address is offered twice. A balance
that the synchronisation puts into the account of a fee that is due, by the last save of the
wallet, was asked for while it was due on the same terms. -/
def Orderly (app : App) : Place → Prop
  | .preparing object => object.state = .deploying
  | .requestingCreation object => object.state = .creationStarted ∧ Agrees app object
  | .moving object next => Agrees app object ∧ (next = .waitingForFirstDeposit →
      ∀ entry ∈ entered object.id app.log, entry.address ≠ object.address)
  | .saving wallet => Agrees app wallet
  | .depositing object => Agrees app object
  | .crediting accountID object => ∀ wallet,
    lastSaved accountID.walletID app.log = some wallet → wallet.state.isFunding = true →
      wallet.feeAccountID = accountID → object.state.isFunding = true ∧ object.terms = wallet.terms
  | _ => True

/-! ## Records that are in order -/

/-- The fee of the wallet was due on the same terms when it was last saved. -/
def Due (wallet : Wallet) (log : List Observation) : Prop :=
  ∃ saved, lastSaved wallet.id log = some saved ∧ saved.state.isFunding = true ∧
    saved.terms = wallet.terms

/-- What an observation rests on. -/
def Justified (earlier : List Observation) : Observation → Prop
  | .saved previous wallet =>
    (wallet.state.isFunding = true →
      (wallet.state = .waitingForFirstDeposit ∧ previous ≠ some .waitingForFirstDeposit) ∨
        Due wallet earlier) ∧
    (wallet.state = .waitingForFirstDeposit → previous ≠ some .waitingForFirstDeposit →
      ∀ entry ∈ entered wallet.id earlier, entry.address ≠ wallet.address) ∧
    (wallet.state = .creationStarted → Funded wallet earlier) ∧
    (wallet.state = .readyToUse → previous ≠ some .readyToUse → Finished previous wallet earlier)
  | .balance object _ => ∃ entry ∈ entered object.id earlier, entry.address = object.address
  | .deposited object amount => .balance object amount ∈ earlier ∧
      ∃ entry, (entered object.id earlier).head? = some entry ∧ entry.terms = object.terms
  | .requestedCreation walletID => FundedSinceEntered walletID earlier
  | _ => True

/-- Every observation rests on what was seen before it. -/
def Proper (log : List Observation) : Prop :=
  ∀ observation earlier, (observation :: earlier) <:+ log → Justified earlier observation

variable {log log' : List Observation} {observation : Observation} {wallet object : Wallet}
  {walletID : WalletID}

theorem Proper.of_suffix (h : Proper log') (hsuffix : log <:+ log') : Proper log :=
  fun _ _ hearlier => h _ _ (hearlier.trans hsuffix)

theorem Proper.cons (h : Proper log) (hjustified : Justified log observation) :
    Proper (observation :: log) := by
  intro observation' earlier hearlier
  rcases List.suffix_cons_iff.mp hearlier with heq | hsuffix
  · cases heq
    exact hjustified
  · exact h _ _ hsuffix

theorem Proper.neverUnfunded (h : Proper log) : NeverUnfunded log :=
  fun _ _ hearlier => h _ _ hearlier

theorem Proper.neverUnfinished (h : Proper log) : NeverUnfinished log :=
  fun _ _ _ hearlier => (h _ _ hearlier).2.2.2

theorem Funded.mono (h : Funded wallet log) (hsuffix : log <:+ log') : Funded wallet log' := by
  obtain ⟨object, amount, minimum, hmem, hrest⟩ := h
  exact ⟨object, amount, minimum, hsuffix.mem hmem, hrest⟩

/-- A wallet on the same terms is funded as well. -/
theorem Funded.of_terms {wallet' : Wallet} (h : Funded wallet log) (hid : wallet'.id = wallet.id)
    (hterms : wallet'.terms = wallet.terms) : Funded wallet' log := by
  obtain ⟨object, amount, minimum, hmem, hobject, hsame, hminimum, hle⟩ := h
  refine ⟨object, amount, minimum, hmem, hobject.trans hid.symm, hsame.trans hterms.symm, ?_, hle⟩
  exact (congrArg DeploymentTerms.minimumDeploymentTransactionAmount hterms).trans hminimum

/-! ## Addresses are entered once -/

theorem entering_eq_some {entry : Wallet} (h : entering walletID observation = some entry) :
    ∃ previous, observation = .saved previous entry ∧ entry.id = walletID ∧
      entry.state = .waitingForFirstDeposit ∧ previous ≠ some .waitingForFirstDeposit := by
  cases observation with
  | saved previous wallet =>
      simp only [entering] at h
      split at h
      · rename_i hentering
        cases h
        exact ⟨previous, rfl, hentering⟩
      · cases h
  | _ => cases h

theorem entered_suffix (h : log <:+ log') : entered walletID log <:+ entered walletID log' := by
  obtain ⟨recent, rfl⟩ := h
  exact ⟨entered walletID recent, (List.filterMap_append).symm⟩

theorem entered_eq_of_cons (hsuffix : log <:+ log')
    (h : entered walletID log = entered walletID (observation :: log')) :
    entering walletID observation = none ∧ entered walletID log = entered walletID log' := by
  cases hentering : entering walletID observation with
  | none =>
      rw [entered, entered, List.filterMap_cons_none hentering] at h
      exact ⟨rfl, h⟩
  | some entry =>
      have hle : (entered walletID log).length ≤ (entered walletID log').length :=
        (entered_suffix hsuffix).length_le
      rw [h, entered, entered, List.filterMap_cons_some hentering, List.length_cons] at hle
      omega

/-- The addresses at which a wallet has waited are all different. -/
theorem Proper.nodup (h : Proper log) (walletID : WalletID) :
    ((entered walletID log).map Wallet.address).Nodup := by
  induction log with
  | nil => exact List.nodup_nil
  | cons observation earlier ih =>
      have hearlier := ih (h.of_suffix (List.suffix_cons _ _))
      cases hentering : entering walletID observation with
      | none => rwa [entered, List.filterMap_cons_none hentering]
      | some entry =>
          obtain ⟨previous, rfl, rfl, hwaiting, hprevious⟩ := entering_eq_some hentering
          rw [entered, List.filterMap_cons_some hentering, List.map_cons, List.nodup_cons]
          refine ⟨?_, hearlier⟩
          intro hmem
          obtain ⟨entry', hentry', haddress⟩ := List.mem_map.mp hmem
          exact (h _ _ List.suffix_rfl).2.1 hwaiting hprevious entry' hentry' haddress

/-- A wallet that waits where it has waited before did not wait elsewhere in between. -/
theorem Proper.entered_eq (h : Proper log') (hsuffix : log <:+ log') {entry entry' : Wallet}
    (hentry : (entered walletID log).head? = some entry)
    (hentry' : (entered walletID log').head? = some entry')
    (haddress : entry'.address = entry.address) :
    entered walletID log = entered walletID log' := by
  have hnodup := h.nodup walletID
  obtain ⟨recent, hrecent⟩ : entered walletID log <:+ entered walletID log' :=
    entered_suffix hsuffix
  cases recent with
  | nil => exact hrecent
  | cons first rest =>
      rw [← hrecent] at hentry' hnodup
      cases hentry'
      rw [List.cons_append, List.map_cons, List.nodup_cons] at hnodup
      apply absurd _ hnodup.1
      rw [haddress]
      exact List.mem_map_of_mem (List.mem_append_right _ (List.mem_of_mem_head? hentry))

/-- A balance at the address where the wallet waits was seen since it waits there. -/
theorem Proper.mem_sinceEntered (h : Proper log) {entry : Wallet} {amount : ℕ}
    (hentry : (entered walletID log).head? = some entry) (hmem : .balance object amount ∈ log)
    (hid : object.id = walletID) (haddress : object.address = entry.address) :
    .balance object amount ∈ sinceEntered walletID log := by
  induction log with
  | nil => cases hmem
  | cons observation earlier ih =>
      rw [sinceEntered]
      cases hentering : entering walletID observation with
      | none =>
          rw [List.takeWhile_cons_of_pos (by simp [hentering])]
          rw [entered, List.filterMap_cons_none hentering] at hentry
          rcases List.mem_cons.mp hmem with heq | hmem
          · exact heq ▸ List.mem_cons_self
          · exact List.mem_cons_of_mem _ (ih (h.of_suffix (List.suffix_cons _ _)) hentry hmem)
      | some entry' =>
          rw [entered, List.filterMap_cons_some hentering] at hentry
          cases hentry
          obtain ⟨previous, rfl, hsame, hwaiting, hprevious⟩ := entering_eq_some hentering
          -- the balance would be older than the address
          have hmem : .balance object amount ∈ earlier := by simpa using hmem
          obtain ⟨before, older, hsplit⟩ := List.append_of_mem hmem
          have holder : (.balance object amount :: older) <:+ earlier := ⟨before, hsplit.symm⟩
          obtain ⟨known, hknown, hknown'⟩ := h _ _ (holder.trans (List.suffix_cons _ _))
          have holder' : entered object.id older <:+ entered object.id earlier :=
            entered_suffix ((List.suffix_cons _ _).trans holder)
          have hfresh := (h _ _ List.suffix_rfl).2.1 hwaiting hprevious
          rw [hsame, ← hid] at hfresh
          exact absurd (hknown'.trans haddress) (hfresh known (holder'.mem hknown))

/-- What is seen of the stored wallet is what was seen since it waits. -/
theorem Proper.fundedSinceEntered (h : Proper log) {entry : Wallet} (hid : wallet.id = walletID)
    (hsaved : lastSaved walletID log = some wallet)
    (hentry : (entered walletID log).head? = some entry) (hterms : entry.terms = wallet.terms)
    (hfunded : Funded wallet log) : FundedSinceEntered walletID log := by
  obtain ⟨object, amount, minimum, hmem, hobject, hsame, hminimum, hle⟩ := hfunded
  refine ⟨?_, wallet, hsaved, object, amount, minimum, ?_, hobject, hsame, hminimum, hle⟩
  · intro hnil
    rw [hnil] at hentry
    cases hentry
  · apply h.mem_sinceEntered hentry hmem (hobject.trans hid)
    exact congrArg DeploymentTerms.address (hsame.trans hterms.symm)

/-! ## While the fee is due -/

theorem lastSaved_id (h : lastSaved walletID log = some wallet) : wallet.id = walletID := by
  obtain ⟨observation, -, hsaving⟩ := List.exists_of_findSome?_eq_some h
  cases observation with
  | saved previous saved =>
      simp only [saving] at hsaving
      split at hsaving
      · rename_i hid
        cases hsaving
        exact hid
      · cases hsaving
  | _ => cases hsaving

/-- A wallet whose fee is due begins to wait with its save, or its fee was due before. -/
theorem Proper.lastSaved_cons (h : Proper (observation :: log))
    (hsaved : lastSaved walletID (observation :: log) = some wallet)
    (hfunding : wallet.state.isFunding = true) :
    entering walletID observation = some wallet ∨
      entering walletID observation = none ∧ ∃ saved, lastSaved walletID log = some saved ∧
        saved.state.isFunding = true ∧ saved.terms = wallet.terms := by
  cases hsaving : saving walletID observation with
  | none =>
      rw [lastSaved, List.findSome?_cons_of_isNone (by simp [hsaving])] at hsaved
      refine .inr ⟨?_, wallet, hsaved, hfunding, rfl⟩
      cases hentering : entering walletID observation with
      | none => rfl
      | some entry =>
          obtain ⟨previous, rfl, rfl, -⟩ := entering_eq_some hentering
          simp [saving] at hsaving
  | some saved =>
      rw [lastSaved, List.findSome?_cons_of_isSome (by simp [hsaving]), hsaving] at hsaved
      cases hsaved
      cases observation with
      | saved previous saved =>
          simp only [saving] at hsaving
          split at hsaving
          · rename_i hid
            subst hid
            cases hsaving
            by_cases hbegins : wallet.state = .waitingForFirstDeposit ∧
                previous ≠ some .waitingForFirstDeposit
            · exact .inl (by simp [entering, hbegins])
            · refine .inr ⟨by simp [entering, hbegins], ?_⟩
              exact ((h _ _ List.suffix_rfl).1 hfunding).resolve_left hbegins
          · cases hsaving
      | _ => cases hsaving

/-- A wallet whose fee is due waits where it last began to. -/
theorem Proper.entry (h : Proper log) (hsaved : lastSaved walletID log = some wallet)
    (hfunding : wallet.state.isFunding = true) :
    ∃ entry, (entered walletID log).head? = some entry ∧ entry.terms = wallet.terms := by
  induction log generalizing wallet with
  | nil => cases hsaved
  | cons observation earlier ih =>
      rcases h.lastSaved_cons hsaved hfunding with
        hentering | ⟨hentering, saved, hearlier, hfunding', hterms⟩
      · exact ⟨wallet, by rw [entered, List.filterMap_cons_some hentering]; rfl, rfl⟩
      · obtain ⟨entry, hentry, hsame⟩ := ih (h.of_suffix (List.suffix_cons _ _)) hearlier hfunding'
        rw [entered, List.filterMap_cons_none hentering]
        exact ⟨entry, hentry, hsame.trans hterms⟩

/-- A fee that is due was due as long as the wallet waits there. -/
theorem Proper.due_before (h : Proper log') (hsuffix : log <:+ log')
    (hentered : entered walletID log = entered walletID log')
    (hsaved : lastSaved walletID log' = some wallet) (hfunding : wallet.state.isFunding = true) :
    ∃ saved, lastSaved walletID log = some saved ∧ saved.state.isFunding = true ∧
      saved.terms = wallet.terms := by
  induction log' generalizing wallet with
  | nil =>
      rw [List.suffix_nil.mp hsuffix]
      exact ⟨wallet, hsaved, hfunding, rfl⟩
  | cons observation earlier ih =>
      rcases List.suffix_cons_iff.mp hsuffix with rfl | hsuffix
      · exact ⟨wallet, hsaved, hfunding, rfl⟩
      · obtain ⟨hnone, hearlier⟩ := entered_eq_of_cons hsuffix hentered
        rcases h.lastSaved_cons hsaved hfunding with
          hentering | ⟨-, saved, hsaved', hfunding', hterms⟩
        · rw [hnone] at hentering
          cases hentering
        · obtain ⟨older, holder, hfunding'', hsame⟩ :=
            ih (h.of_suffix (List.suffix_cons _ _)) hsuffix hearlier hsaved' hfunding'
          exact ⟨older, holder, hfunding'', hsame.trans hterms⟩

/-- What was seen after the wallet last began to wait. -/
theorem mem_sinceEntered_of_suffix {older : List Observation}
    (hsuffix : (observation :: older) <:+ log) (hentering : entering walletID observation = none)
    (hentered : entered walletID older = entered walletID log) :
    observation ∈ sinceEntered walletID log := by
  induction log with
  | nil => exact absurd (List.suffix_nil.mp hsuffix) (List.cons_ne_nil _ _)
  | cons later earlier ih =>
      rw [sinceEntered]
      rcases List.suffix_cons_iff.mp hsuffix with heq | hsuffix
      · cases heq
        rw [List.takeWhile_cons_of_pos (by simp [hentering])]
        exact List.mem_cons_self
      · obtain ⟨hnone, hearlier⟩ :=
          entered_eq_of_cons ((List.suffix_cons _ _).trans hsuffix) hentered
        rw [List.takeWhile_cons_of_pos (by simp [hnone])]
        exact List.mem_cons_of_mem _ (ih hsuffix hearlier)

/-! ## The amount in an account -/

/-- A balance was seen for the wallet, on its terms. -/
def Seen (wallet : Wallet) (amount : ℕ) (log : List Observation) : Prop :=
  ∃ object, .balance object amount ∈ log ∧ object.id = wallet.id ∧ object.terms = wallet.terms

/-- A deposit was made for the object. -/
def Deposited (object : Wallet) (log : List Observation) : Prop :=
  ∃ amount older, (.deposited object amount :: older) <:+ log

/-- A deposit was made for the wallet since it waits. -/
def DepositedSinceEntered (walletID : WalletID) (log : List Observation) : Prop :=
  ∃ object amount, .deposited object amount ∈ sinceEntered walletID log ∧ object.id = walletID

/-- What was read in the account after a deposit: if the fee was still due, nothing or an amount
that was seen. -/
def Readable (object : Wallet) (amount : ℤ) (log : List Observation) : Prop :=
  ∃ before, before <:+ log ∧ Deposited object before ∧
    (Due object before → amount = 0 ∨ ∃ seen : ℕ, amount = seen ∧ Seen object seen before)

theorem Seen.mono {amount : ℕ} (h : Seen wallet amount log) (hsuffix : log <:+ log') :
    Seen wallet amount log' := by
  obtain ⟨object, hmem, hsame⟩ := h
  exact ⟨object, hsuffix.mem hmem, hsame⟩

theorem Seen.of_terms {amount : ℕ} {wallet' : Wallet} (h : Seen wallet amount log)
    (hid : wallet'.id = wallet.id) (hterms : wallet'.terms = wallet.terms) :
    Seen wallet' amount log := by
  obtain ⟨object, hmem, hobject, hsame⟩ := h
  exact ⟨object, hmem, hobject.trans hid.symm, hsame.trans hterms.symm⟩

theorem Deposited.mono (h : Deposited object log) (hsuffix : log <:+ log') :
    Deposited object log' := by
  obtain ⟨amount, older, holder⟩ := h
  exact ⟨amount, older, holder.trans hsuffix⟩

theorem Readable.mono {amount : ℤ} (h : Readable object amount log) (hsuffix : log <:+ log') :
    Readable object amount log' := by
  obtain ⟨before, hbefore, hamount⟩ := h
  exact ⟨before, hbefore.trans hsuffix, hamount⟩

/-- The fee is paid into one account on the same terms. -/
theorem feeAccountID_eq {wallet' : Wallet} (hid : wallet'.id = wallet.id)
    (hterms : wallet'.terms = wallet.terms) : wallet'.feeAccountID = wallet.feeAccountID := by
  have htoken : wallet'.feePaymentTokenAddress = wallet.feePaymentTokenAddress :=
    congrArg DeploymentTerms.feePaymentTokenAddress hterms
  rw [Wallet.feeAccountID, htoken, hid, Wallet.feeAccountID]

/-- The wallet waits where it waited at the deposit. -/
theorem Proper.entered_of_deposited (h : Proper log) {amount : ℕ} {older : List Observation}
    (hdeposited : (.deposited object amount :: older) <:+ log) (hdue : Due object log) :
    entered object.id older = entered object.id log := by
  obtain ⟨-, entry, hentry, hterms⟩ := h _ _ hdeposited
  obtain ⟨saved, hsaved, hfunding, hsame⟩ := hdue
  obtain ⟨entry', hentry', hterms'⟩ := h.entry hsaved hfunding
  apply h.entered_eq ((List.suffix_cons _ _).trans hdeposited) hentry hentry'
  exact congrArg DeploymentTerms.address ((hterms'.trans hsame).trans hterms.symm)

/-- An amount that was read counts for the object, if its fee is still due. -/
theorem Proper.funded_of_readable (h : Proper log) {amount minimum : ℤ}
    (hreadable : Readable object amount log) (hdue : Due object log)
    (hminimum : object.minimumDeploymentTransactionAmount = some minimum)
    (hle : minimum ≤ amount) : Funded object log := by
  obtain ⟨before, hbefore, ⟨amount₀, older, hdeposited⟩, hamount⟩ := hreadable
  have hlog := hdeposited.trans hbefore
  have hsame := h.entered_of_deposited hlog hdue
  obtain ⟨saved, hsaved, hfunding, hterms⟩ := hdue
  -- between the deposit and now, the wallet did not begin to wait elsewhere
  have hbetween : entered object.id before = entered object.id log := by
    apply (entered_suffix hbefore).eq_of_length_le
    rw [← hsame]
    exact (entered_suffix ((List.suffix_cons _ _).trans hdeposited)).length_le
  obtain ⟨saved', hsaved', hfunding', hterms'⟩ := h.due_before hbefore hbetween hsaved hfunding
  rcases hamount ⟨saved', hsaved', hfunding', hterms'.trans hterms⟩ with
    rfl | ⟨seen, rfl, object', hmem, hid, hsame'⟩
  · -- a fee of zero is covered by any balance
    have hseen := (h _ _ hlog).1
    refine ⟨object, amount₀, minimum, ?_, rfl, rfl, hminimum, by omega⟩
    exact ((List.suffix_cons _ _).trans hlog).mem hseen
  · exact ⟨object', seen, minimum, hbefore.mem hmem, hid, hsame', hminimum, hle⟩

/-! ## The invariant -/

/-- An object that waits for money has an address at which its wallet has waited. -/
def Known (object : Wallet) (log : List Observation) : Prop :=
  object.state = .waitingForFirstDeposit ∨ object.state = .notEnoughFunds →
    ∃ entry ∈ entered object.id log, entry.address = object.address

theorem Known.mono (h : Known object log) (hsuffix : log <:+ log') : Known object log' := by
  intro hstate
  obtain ⟨entry, hentry, haddress⟩ := h hstate
  exact ⟨entry, (entered_suffix hsuffix).mem hentry, haddress⟩

/-- The states that orderly actions reach. Once a deposit was made, the account of a fee that is
due holds nothing or what was seen. -/
structure Invariant (app : App) : Prop where
  proper : Proper app.log
  stored : ∀ walletID wallet, app.store.wallets.find walletID = some wallet →
    wallet.state.isFunding = true → lastSaved walletID app.log = some wallet
  accounts : ∀ walletID wallet account, lastSaved walletID app.log = some wallet →
    wallet.state.isFunding = true → DepositedSinceEntered walletID app.log →
      app.store.accounts.find wallet.feeAccountID = some account →
        account.balance = none ∨
          ∃ amount : ℕ, account.balance = some (amount : ℤ) ∧ Seen wallet amount app.log
  jobs : ∀ repeater check wallet, .round repeater check wallet ∈ app.deployments →
    Known wallet app.log

/-- A step that records nothing, stores nothing and at most prepares rounds for objects
that are known. -/
structure Frame (app app' : App) : Prop where
  log : app'.log = app.log
  wallets : ∀ walletID wallet, app'.store.wallets.find walletID = some wallet →
    app.store.wallets.find walletID = some wallet
  accounts : ∀ accountID account, app'.store.accounts.find accountID = some account →
    app.store.accounts.find accountID = some account ∨ account.balance = none
  jobs : ∀ repeater check wallet, .round repeater check wallet ∈ app'.deployments →
    .round repeater check wallet ∈ app.deployments ∨ Known wallet app.log

/-- An observation that is neither a save nor a deposit. -/
def Quiet (observation : Observation) : Prop :=
  (∀ walletID, saving walletID observation = none ∧ entering walletID observation = none) ∧
    ∀ object amount, observation ≠ .deposited object amount

variable {app app' : App}

theorem Frame.invariant (h : Frame app app') (hinv : Invariant app) : Invariant app' where
  proper := by
    rw [h.log]
    exact hinv.proper
  stored walletID wallet hfind hfunding := by
    rw [h.log]
    exact hinv.stored walletID wallet (h.wallets walletID wallet hfind) hfunding
  accounts walletID wallet account hsaved hfunding hdeposited hfind := by
    rw [h.log] at hsaved hdeposited ⊢
    rcases h.accounts _ account hfind with hfind | hnone
    · exact hinv.accounts walletID wallet account hsaved hfunding hdeposited hfind
    · exact .inl hnone
  jobs repeater check wallet hjob := by
    rw [h.log]
    exact (h.jobs repeater check wallet hjob).elim (hinv.jobs repeater check wallet) id

/-- A deposit was made before, unless it is what is observed now. -/
theorem DepositedSinceEntered.of_cons (h : DepositedSinceEntered walletID (observation :: log))
    (hne : ∀ object amount, object.id = walletID → observation ≠ .deposited object amount) :
    entering walletID observation = none ∧ DepositedSinceEntered walletID log := by
  obtain ⟨object, amount, hmem, hid⟩ := h
  cases hentering : entering walletID observation with
  | none =>
      rw [sinceEntered, List.takeWhile_cons_of_pos (by simp [hentering])] at hmem
      rcases List.mem_cons.mp hmem with heq | hmem
      · exact absurd heq.symm (hne object amount hid)
      · exact ⟨rfl, object, amount, hmem, hid⟩
  | some entry =>
      rw [sinceEntered, List.takeWhile_cons_of_neg (by simp [hentering])] at hmem
      cases hmem

namespace Invariant

/-- The stored wallet that is about to be created is funded. -/
theorem funded (h : Invariant app) (hfind : app.store.wallets.find walletID = some wallet)
    (hstate : wallet.state = .creationStarted) : Funded wallet app.log := by
  have hsaved := h.stored walletID wallet hfind (by rw [hstate]; rfl)
  obtain ⟨observation, hmem, hsaving⟩ := List.exists_of_findSome?_eq_some hsaved
  obtain ⟨before, earlier, hsplit⟩ := List.append_of_mem hmem
  have hearlier : (observation :: earlier) <:+ app.log := ⟨before, hsplit.symm⟩
  cases observation with
  | saved previous saved =>
      simp only [saving] at hsaving
      split at hsaving
      · cases hsaving
        have hjustified := h.proper _ _ hearlier
        exact (hjustified.2.2.1 hstate).mono ((List.suffix_cons _ _).trans hearlier)
      · cases hsaving
  | _ => cases hsaving

/-- A fee that is due is paid at an address at which the wallet has waited. -/
theorem waits (h : Invariant app) (hfind : app.store.wallets.find walletID = some wallet)
    (hfunding : wallet.state.isFunding = true) :
    ∃ entry ∈ entered wallet.id app.log, entry.address = wallet.address := by
  obtain ⟨entry, hentry, hterms⟩ :=
    h.proper.entry (h.stored walletID wallet hfind hfunding) hfunding
  obtain ⟨-, rfl⟩ := Table.mem_of_find hfind
  exact ⟨entry, List.mem_of_mem_head? hentry, congrArg DeploymentTerms.address hterms⟩

theorem known (h : Invariant app) (hfind : app.store.wallets.find walletID = some wallet) :
    Known wallet app.log := by
  intro hstate
  apply h.waits hfind
  rcases hstate with hstate | hstate <;> rw [hstate] <;> rfl

/-- The fee of an object that agrees with the store is due on its terms. -/
theorem due (h : Invariant app) (hagrees : Agrees app object)
    (hfunding : object.state.isFunding = true) : Due object app.log := by
  obtain ⟨stored, hfind, hstate, hterms⟩ := hagrees
  have hstored : stored.state.isFunding = true := by rwa [hstate]
  exact ⟨stored, h.stored object.id stored hfind hstored, hstored, hterms hfunding⟩

theorem observe (h : Invariant app) (hjustified : Justified app.log observation)
    (hquiet : Quiet observation) : Invariant (app.observe observation) where
  proper := h.proper.cons hjustified
  stored walletID wallet hfind hfunding := by
    rw [App.observe_log, lastSaved,
      List.findSome?_cons_of_isNone (by simp [(hquiet.1 walletID).1])]
    exact h.stored walletID wallet hfind hfunding
  accounts walletID wallet account hsaved hfunding hdeposited hfind := by
    rw [App.observe_log, lastSaved,
      List.findSome?_cons_of_isNone (by simp [(hquiet.1 walletID).1])] at hsaved
    obtain ⟨-, hearlier⟩ := hdeposited.of_cons fun object amount _ => hquiet.2 object amount
    refine (h.accounts walletID wallet account hsaved hfunding hearlier hfind).imp_right ?_
    rintro ⟨amount, hbalance, hseen⟩
    exact ⟨amount, hbalance, hseen.mono (List.suffix_cons _ _)⟩
  jobs repeater check wallet hjob := (h.jobs repeater check wallet hjob).mono (List.suffix_cons _ _)

/-- A wallet is saved: it begins to wait, or takes the place of one on the same terms. -/
theorem saveWallet (h : Invariant app)
    (hjustified : Justified app.log
      (.saved ((app.store.wallets.find wallet.id).map Wallet.state) wallet)) :
    Invariant (app.saveWallet wallet) where
  proper := h.proper.cons hjustified
  stored walletID stored hfind hfunding := by
    rw [App.saveWallet_wallets, Table.find_save] at hfind
    rw [App.saveWallet_log]
    split at hfind
    · rename_i hid
      subst hid
      cases hfind
      simp [lastSaved, saving]
    · rename_i hid
      rw [lastSaved, List.findSome?_cons_of_isNone (by simp [saving, hid])]
      exact h.stored walletID stored hfind hfunding
  accounts walletID stored account hsaved hfunding hdeposited hfind := by
    rw [App.saveWallet_log] at hsaved hdeposited
    obtain ⟨hnone, hearlier⟩ := hdeposited.of_cons fun _ _ _ => Observation.noConfusion
    rcases (h.proper.cons hjustified).lastSaved_cons hsaved hfunding with
      hentering | ⟨-, saved, hsaved', hfunding', hterms⟩
    · rw [hnone] at hentering
      cases hentering
    · have hid : stored.id = saved.id := (lastSaved_id hsaved).trans (lastSaved_id hsaved').symm
      rw [feeAccountID_eq hid hterms.symm] at hfind
      refine (h.accounts walletID saved account hsaved' hfunding' hearlier hfind).imp_right ?_
      rintro ⟨amount, hbalance, hseen⟩
      exact ⟨amount, hbalance, (hseen.of_terms hid hterms.symm).mono (List.suffix_cons _ _)⟩
  jobs repeater check wallet hjob := (h.jobs repeater check wallet hjob).mono (List.suffix_cons _ _)

/-- A balance that was seen is put into the account of an object that is up to date. -/
theorem deposit (h : Invariant app) {account : Account} {amount : ℕ}
    (haccount : account.id = object.feeAccountID) (hagrees : Agrees app object)
    (hfunding : object.state.isFunding = true) (hseen : .balance object amount ∈ app.log) :
    Invariant ((app.modify fun store => { store with
      accounts := store.accounts.save { account with balance := some (amount : ℤ) } }).observe
        (.deposited object amount)) where
  proper := by
    obtain ⟨saved, hsaved, hfunding', hterms⟩ := h.due hagrees hfunding
    obtain ⟨entry, hentry, hentry'⟩ := h.proper.entry hsaved hfunding'
    exact h.proper.cons ⟨hseen, entry, hentry, hentry'.trans hterms⟩
  stored := h.stored
  accounts walletID wallet found hsaved hfunding' hdeposited hfind := by
    have hsaved : lastSaved walletID app.log = some wallet := hsaved
    simp only [App.observe_store, App.modify_store, Table.find_save] at hfind
    rw [haccount] at hfind
    by_cases hid : object.id = walletID
    · -- the amount is the one that was seen for the object
      obtain ⟨saved, hdue, -, hterms⟩ := h.due hagrees hfunding
      rw [hid, hsaved] at hdue
      cases hdue
      have hsame : object.id = wallet.id := hid.trans (lastSaved_id hsaved).symm
      rw [if_pos (feeAccountID_eq hsame hterms.symm)] at hfind
      cases hfind
      exact .inr ⟨amount, rfl, object, List.mem_cons_of_mem _ hseen, hsame, hterms.symm⟩
    · obtain ⟨-, hearlier⟩ := hdeposited.of_cons fun object' amount' hobject heq => by
        cases heq
        exact hid hobject
      have hother : object.feeAccountID ≠ wallet.feeAccountID := fun heq =>
        hid ((congrArg AccountID.walletID heq).trans (lastSaved_id hsaved))
      rw [if_neg hother] at hfind
      refine (h.accounts walletID wallet found hsaved hfunding' hearlier hfind).imp_right ?_
      rintro ⟨amount', hbalance, hseen'⟩
      exact ⟨amount', hbalance, hseen'.mono (List.suffix_cons _ _)⟩
  jobs repeater check wallet hjob := (h.jobs repeater check wallet hjob).mono (List.suffix_cons _ _)

/-- A balance that was asked for on the terms of a fee that is due, or for another account. -/
theorem credit (h : Invariant app) {accountID : AccountID} {account : Account} {amount : ℕ}
    (haccount : account.id = accountID) (hid : object.id = accountID.walletID)
    (horderly : Orderly app (.crediting accountID object))
    (hseen : object.state.isFunding = true → object.feeAccountID = accountID →
      .balance object amount ∈ app.log) :
    Invariant (app.modify fun store => { store with
      accounts := store.accounts.save { account with balance := some (amount : ℤ) } }) where
  proper := h.proper
  stored := h.stored
  accounts walletID wallet found hsaved hfunding hdeposited hfind := by
    have hsaved : lastSaved walletID app.log = some wallet := hsaved
    rw [App.modify_store, Table.find_save] at hfind
    split at hfind
    · rename_i heq
      rw [haccount] at heq
      cases hfind
      subst heq
      have hsaved' : lastSaved wallet.id app.log = some wallet := by rwa [lastSaved_id hsaved]
      obtain ⟨hobject, hterms⟩ := horderly wallet hsaved' hfunding rfl
      exact .inr ⟨amount, rfl, object, hseen hobject (feeAccountID_eq hid hterms), hid, hterms⟩
    · exact h.accounts walletID wallet found hsaved hfunding hdeposited hfind
  jobs := h.jobs

/-- What is read in the account after a deposit. -/
theorem readable (h : Invariant app) {account : Account}
    (hfind : app.store.accounts.find object.feeAccountID = some account)
    (hdeposited : Deposited object app.log) :
    Readable object (account.balance.getD 0) app.log := by
  refine ⟨app.log, List.suffix_rfl, hdeposited, fun hdue => ?_⟩
  obtain ⟨amount, older, holder⟩ := hdeposited
  have hentered := h.proper.entered_of_deposited holder hdue
  obtain ⟨saved, hsaved, hfunding, hterms⟩ := hdue
  have hid : saved.id = object.id := lastSaved_id hsaved
  have hsince : DepositedSinceEntered object.id app.log :=
    ⟨object, amount, mem_sinceEntered_of_suffix holder rfl hentered, rfl⟩
  rw [← feeAccountID_eq hid hterms] at hfind
  rcases h.accounts object.id saved account hsaved hfunding hsince hfind with
    hnone | ⟨seen, hsome, hseen⟩
  · left
    rw [hnone]
    rfl
  · right
    exact ⟨seen, by rw [hsome]; rfl, hseen.of_terms hid.symm hterms.symm⟩

end Invariant

end DeploymentDomainService

end SafeWallet
