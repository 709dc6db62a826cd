/-
# Dangerous transactions and effective calls

On the chain a transaction is a call: an operation, a contract and data. Whether
it can change the wallet depends on these alone. `isDangerous` looks at the
transaction as it is shown instead, with the recipient in place of the contract
and addresses as text. This module compares the two and finds exactly when they
agree for every spelling of the addresses.
-/

import SafeWallet.Transaction.TransactionService

namespace SafeWallet

namespace TransactionService

variable (services : Services) (store : Store) (tx : Transaction) (wallet : Wallet)
  (walletAddress : Address) (now : Date)

/-! ## The effective call -/

/-- The operation is one that runs foreign code as the wallet. -/
def foreignOperation : Prop := tx.operation ≠ none ∧ tx.operation ≠ some .call

instance : Decidable (foreignOperation tx) := inferInstanceAs (Decidable (_ ∧ _))

/-- Whether the calls a transaction makes can change the wallet: some call runs
foreign code as the wallet, or calls the wallet itself with data. -/
def effectivelyDangerous : Bool :=
  match batchArguments services tx with
  | .ok (some calls) => calls.any fun call =>
      call.operation = .delegateCall ∨ (call.toAddress.data = walletAddress.data ∧ call.data ≠ [])
  | _ => foreignOperation tx ∨ (tx.ethTo.data = walletAddress.data ∧ tx.ethData ≠ [])

/-- An amount with the token's address in another spelling. -/
def RespelledAmount (amount amount' : TokenAmount) : Prop :=
  ∃ address, amount.token.address.Respelled address ∧
    amount' = { amount with token := { amount.token with address := address } }

/-- A transaction with its addresses in another spelling. -/
def RespelledTransaction (tx tx' : Transaction) : Prop :=
  ∃ recipient amount, Option.Rel Address.Respelled tx.recipient recipient ∧
    Option.Rel RespelledAmount tx.amount amount ∧
    tx' = { tx with recipient := recipient, amount := amount }

/-- The repositories with a transaction and its wallet's address spelled anew. -/
def respelledStore (tx' : Transaction) (walletAddress' : Address) : Store :=
  { store with
    transactions := store.transactions.save tx'
    wallets := store.wallets.save { wallet with address := some walletAddress' } }

/-- However the addresses are spelled, the check answers, and the answer is the
one for the effective call. -/
def AnswersEffectively : Prop :=
  ∀ tx' walletAddress', RespelledTransaction tx tx' → walletAddress.Respelled walletAddress' →
    ∃ accounts, isDangerous services (respelledStore store wallet tx' walletAddress') tx.id now =
      .ok (accounts, effectivelyDangerous services tx walletAddress)

/-! ## When the check is right -/

/-- The wallet's address is shown as the recipient. -/
def ShowsWallet : Prop := ∃ recipient, tx.recipient = some recipient ∧
  recipient.Respelled walletAddress

/-- A single call is judged rightly if it is foreign, carries no data, has
nothing to do with the wallet, or is shown and made to the wallet and the
wallet's address has one spelling only. -/
def SingleCallJudged : Prop :=
  foreignOperation tx ∨ tx.ethData = [] ∨
    (¬ ShowsWallet tx walletAddress ∧ tx.ethTo.data ≠ walletAddress.data) ∨
    (ShowsWallet tx walletAddress ∧ tx.ethTo.data = walletAddress.data ∧
      ¬ walletAddress.HasLetters)

/-- A batch is judged rightly if one of its calls is foreign, if no call with
data is shown or made to the wallet, or if one is made to the wallet and every
spelling of the wallet's address is shown by some call with data. -/
def BatchJudged (calls : List MultiSendTransaction) : Prop :=
  (∃ call ∈ calls, call.operation = .delegateCall) ∨
    (∀ call ∈ calls, call.data ≠ [] → ¬ (shown services call).Respelled walletAddress ∧
      call.toAddress.data ≠ walletAddress.data) ∨
    ((∃ call ∈ calls, call.data ≠ [] ∧ call.toAddress.data = walletAddress.data) ∧
      ∀ spelling, walletAddress.Respelled spelling →
        ∃ call ∈ calls, call.data ≠ [] ∧ shown services call = spelling)

/-- The condition on the stored transaction and the wallet's address. -/
def Judged : Prop :=
  match batchArguments services tx with
  | .error _ => False
  | .ok none => SingleCallJudged tx walletAddress
  | .ok (some calls) =>
      (∀ call ∈ calls, Showable services store call) ∧ BatchJudged services walletAddress calls

variable {services store tx wallet walletAddress now}

/-- Unpacking a batch does not depend on the spelling. -/
theorem batchArguments_congr {tx' : Transaction} (h : RespelledTransaction tx tx') :
    batchArguments services tx' = batchArguments services tx := by
  obtain ⟨recipient, amount, hrecipient, -, rfl⟩ := h
  cases hfrom : tx.recipient with
  | none =>
      rw [hfrom] at hrecipient
      cases hrecipient
      simp [batchArguments, hfrom]
  | some first =>
      rw [hfrom] at hrecipient
      cases hrecipient with
      | some hspelled =>
          cases hdata : tx.data with
          | none => simp [batchArguments, hfrom, hdata]
          | some data =>
              simp only [batchArguments, isMultiSend, hfrom, hdata, Option.any_some,
                MultiSend.isMultiSend_congr hspelled,
                MultiSend.decodeMultiSendArguments_congr hspelled]

theorem RespelledTransaction.refl (tx : Transaction) : RespelledTransaction tx tx := by
  refine ⟨tx.recipient, tx.amount, ?_, ?_, rfl⟩
  · cases tx.recipient with
    | none => exact .none
    | some recipient => exact .some (.refl recipient)
  · cases tx.amount with
    | none => exact .none
    | some amount => exact .some ⟨amount.token.address, .refl _, rfl⟩

/-- Respelling the recipient alone. -/
theorem RespelledTransaction.of_recipient {recipient recipient' : Address}
    (hfrom : tx.recipient = some recipient) (h : recipient.Respelled recipient') :
    RespelledTransaction tx { tx with recipient := some recipient' } := by
  obtain ⟨_, amount, -, hamount, -⟩ := RespelledTransaction.refl tx
  refine ⟨some recipient', tx.amount, hfrom ▸ .some h, ?_, rfl⟩
  cases tx.amount with
  | none => exact .none
  | some amount => exact .some ⟨amount.token.address, .refl _, rfl⟩

/-- The transaction and the wallet are found in their new spelling. -/
theorem find_respelledStore (store : Store) (hwallet : wallet.id = tx.accountID.walletID)
    {tx' : Transaction} (h : RespelledTransaction tx tx') (walletAddress' : Address) :
    tx'.id = tx.id ∧
      (respelledStore store wallet tx' walletAddress').transactions.find tx'.id = some tx' ∧
      (respelledStore store wallet tx' walletAddress').wallets.find tx'.accountID.walletID =
        some { wallet with address := some walletAddress' } := by
  obtain ⟨recipient, amount, -, -, rfl⟩ := h
  refine ⟨rfl, Table.find_save_self, ?_⟩
  rw [respelledStore, Table.find_save, if_pos hwallet]

/-- What has to agree for a single call. -/
theorem answersEffectively_single (hwallet : wallet.id = tx.accountID.walletID)
    (hbatch : batchArguments services tx = .ok none) :
    AnswersEffectively services store tx wallet walletAddress now ↔
      ∀ tx' walletAddress', RespelledTransaction tx tx' → walletAddress.Respelled walletAddress' →
        (tx'.isDangerous walletAddress' ↔ foreignOperation tx ∨
          (tx.ethTo.data = walletAddress.data ∧ tx.ethData ≠ [])) := by
  apply forall₄_congr
  intro tx' walletAddress' htx hspelled
  obtain ⟨hid, hfind, hfindWallet⟩ := find_respelledStore store hwallet htx walletAddress'
  rw [← hid, isDangerous_of_not_batch hfind hfindWallet rfl
    ((batchArguments_congr htx).trans hbatch)]
  have heffective : effectivelyDangerous services tx walletAddress ↔ foreignOperation tx ∨
      (tx.ethTo.data = walletAddress.data ∧ tx.ethData ≠ []) := by
    simp [effectivelyDangerous, hbatch]
  rw [← heffective, ← Bool.eq_iff_iff]
  simp

/-- A single call is judged rightly in every spelling exactly under the
condition for single calls. -/
theorem answersEffectively_single_iff (hwallet : wallet.id = tx.accountID.walletID)
    (hbatch : batchArguments services tx = .ok none) (hwf : walletAddress.WellFormed) :
    AnswersEffectively services store tx wallet walletAddress now ↔
      SingleCallJudged tx walletAddress := by
  rw [answersEffectively_single hwallet hbatch]
  have hfields : ∀ tx', RespelledTransaction tx tx' →
      (foreignOperation tx' ↔ foreignOperation tx) ∧ tx'.ethData = tx.ethData := by
    rintro tx' ⟨recipient, amount, -, -, rfl⟩
    exact ⟨Iff.rfl, rfl⟩
  have hlooks : ∀ tx' a, tx'.isDangerous a ↔ foreignOperation tx' ∨
      (tx'.recipient = some a ∧ tx'.ethData ≠ []) := by
    intro tx' a
    simp [Transaction.isDangerous, foreignOperation, Transaction.hasData, Transaction.ethData]
  constructor
  · intro h
    by_cases hforeign : foreignOperation tx
    · exact .inl hforeign
    by_cases hdata : tx.ethData = []
    · exact .inr (.inl hdata)
    -- With data and a plain call, being shown and being called must coincide.
    have hsame : ∀ tx' walletAddress', RespelledTransaction tx tx' →
        walletAddress.Respelled walletAddress' →
        (tx'.recipient = some walletAddress' ↔ tx.ethTo.data = walletAddress.data) := by
      intro tx' walletAddress' htx hspelled
      have := h tx' walletAddress' htx hspelled
      rw [hlooks, (hfields tx' htx).1, (hfields tx' htx).2] at this
      simpa [hforeign, hdata] using this
    by_cases hshows : ShowsWallet tx walletAddress
    · obtain ⟨recipient, hrecipient, hspelled⟩ := hshows
      have htarget := (hsame _ _ (.of_recipient hrecipient hspelled) (.refl _)).mp rfl
      refine .inr (.inr (.inr ⟨⟨recipient, hrecipient, hspelled⟩, htarget, fun hletters => ?_⟩))
      have hupper := (hsame _ _ (.of_recipient hrecipient (hspelled.trans hwf.respelled_upper))
        hwf.respelled_normalized).mpr htarget
      exact hletters.upper_ne_normalized (Option.some.inj hupper)
    · refine .inr (.inr (.inl ⟨hshows, fun htarget => hshows ?_⟩))
      exact ⟨walletAddress, (hsame _ _ (.refl tx) (.refl _)).mpr htarget, .refl _⟩
  · intro h tx' walletAddress' htx hspelled
    rw [hlooks, (hfields tx' htx).1, (hfields tx' htx).2]
    obtain ⟨recipient', amount', hrecipient, -, rfl⟩ := htx
    have hshown : recipient' = some walletAddress' → ShowsWallet tx walletAddress := by
      rintro rfl
      cases hfrom : tx.recipient with
      | none => rw [hfrom] at hrecipient; cases hrecipient
      | some recipient =>
          rw [hfrom] at hrecipient
          cases hrecipient with
          | some hs => exact ⟨recipient, hfrom, hs.trans hspelled.symm⟩
    rcases h with hforeign | hdata | ⟨hshows, htarget⟩ | ⟨⟨recipient, hfrom, hs⟩, htarget, hletters⟩
    · simp [hforeign]
    · simp [hdata]
    · have hrecipient' : recipient' ≠ some walletAddress' := fun heq => hshows (hshown heq)
      simp [htarget, hrecipient']
    · -- There is only one spelling, so the recipient is the wallet's text.
      have hwallet' : walletAddress' = walletAddress := hspelled.eq_of_not_hasLetters hwf hletters
      have hrecipient' : recipient' = some walletAddress := by
        rw [hfrom] at hrecipient
        cases hrecipient with
        | some hs' =>
            have := (hs.symm.trans hs').eq_of_not_hasLetters hwf hletters
            rw [this]
      simp [hrecipient', hwallet', htarget]

/-- What has to agree for a batch. -/
theorem answersEffectively_batch (hwallet : wallet.id = tx.accountID.walletID)
    {calls : List MultiSendTransaction} (hbatch : batchArguments services tx = .ok (some calls)) :
    AnswersEffectively services store tx wallet walletAddress now ↔
      ∀ spelling, walletAddress.Respelled spelling →
        (∀ call ∈ calls, Showable services store call) ∧
          ((∃ call ∈ calls, call.operation = .delegateCall ∨
            (call.toAddress.data = walletAddress.data ∧ call.data ≠ [])) ↔
            ∃ call ∈ calls, looksDangerous services call spelling) := by
  have heffective : effectivelyDangerous services tx walletAddress ↔
      ∃ call ∈ calls, call.operation = .delegateCall ∨
        (call.toAddress.data = walletAddress.data ∧ call.data ≠ []) := by
    simp [effectivelyDangerous, hbatch]
  have hanswer : ∀ tx' spelling, RespelledTransaction tx tx' →
      ((∃ accounts, isDangerous services (respelledStore store wallet tx' spelling) tx.id now =
        .ok (accounts, effectivelyDangerous services tx walletAddress)) ↔
        (∀ call ∈ calls, Showable services store call) ∧
          ((∃ call ∈ calls, call.operation = .delegateCall ∨
            (call.toAddress.data = walletAddress.data ∧ call.data ≠ [])) ↔
            ∃ call ∈ calls, looksDangerous services call spelling)) := by
    intro tx' spelling htx
    obtain ⟨hid, hfind, hfindWallet⟩ := find_respelledStore store hwallet htx spelling
    rw [← hid, isDangerous_batch_iff hfind hfindWallet rfl ((batchArguments_congr htx).trans hbatch),
      heffective]
    -- The token list is not touched by respelling.
    exact Iff.rfl
  constructor
  · intro h spelling hspelled
    exact (hanswer tx spelling (.refl tx)).mp (h tx spelling (.refl tx) hspelled)
  · intro h tx' spelling htx hspelled
    exact (hanswer tx' spelling htx).mpr (h spelling hspelled)

/-- A batch is judged rightly in every spelling exactly if all its calls can be
shown and the condition for batches holds. -/
theorem answersEffectively_batch_iff (hwallet : wallet.id = tx.accountID.walletID)
    {calls : List MultiSendTransaction} (hbatch : batchArguments services tx = .ok (some calls)) :
    AnswersEffectively services store tx wallet walletAddress now ↔
      (∀ call ∈ calls, Showable services store call) ∧
        BatchJudged services walletAddress calls := by
  rw [answersEffectively_batch hwallet hbatch]
  constructor
  · intro h
    refine ⟨(h walletAddress (.refl _)).1, ?_⟩
    by_cases hforeign : ∃ call ∈ calls, call.operation = .delegateCall
    · exact .inl hforeign
    -- Without foreign calls both sides are about data sent to the wallet.
    have hsame : ∀ spelling, walletAddress.Respelled spelling →
        ((∃ call ∈ calls, call.toAddress.data = walletAddress.data ∧ call.data ≠ []) ↔
          ∃ call ∈ calls, shown services call = spelling ∧ call.data ≠ []) := by
      intro spelling hspelled
      have hplain : ∀ P : MultiSendTransaction → Prop,
          (∃ call ∈ calls, call.operation = .delegateCall ∨ P call) ↔ ∃ call ∈ calls, P call := by
        intro P
        constructor
        · rintro ⟨call, hcall, hdelegate | hP⟩
          · exact absurd ⟨call, hcall, hdelegate⟩ hforeign
          · exact ⟨call, hcall, hP⟩
        · rintro ⟨call, hcall, hP⟩
          exact ⟨call, hcall, .inr hP⟩
      have := (h spelling hspelled).2
      simpa only [looksDangerous, hplain] using this
    by_cases hcalled : ∃ call ∈ calls, call.toAddress.data = walletAddress.data ∧ call.data ≠ []
    · refine .inr (.inr ⟨?_, fun spelling hspelled => ?_⟩)
      · obtain ⟨call, hcall, htarget, hdata⟩ := hcalled
        exact ⟨call, hcall, hdata, htarget⟩
      · obtain ⟨call, hcall, hshown, hdata⟩ := (hsame spelling hspelled).mp hcalled
        exact ⟨call, hcall, hdata, hshown⟩
    · refine .inr (.inl fun call hcall hdata => ⟨fun hshown => hcalled ?_, fun htarget => hcalled ?_⟩)
      · exact (hsame _ hshown.symm).mpr ⟨call, hcall, rfl, hdata⟩
      · exact ⟨call, hcall, htarget, hdata⟩
  · rintro ⟨hshow, hjudged⟩ spelling hspelled
    refine ⟨hshow, ?_⟩
    rcases hjudged with ⟨call, hcall, hdelegate⟩ | hnone | ⟨⟨call, hcall, hdata, htarget⟩, hall⟩
    · exact ⟨fun _ => ⟨call, hcall, .inl hdelegate⟩, fun _ => ⟨call, hcall, .inl hdelegate⟩⟩
    · constructor
      · rintro ⟨call, hcall, hdelegate | ⟨htarget, hdata⟩⟩
        · exact ⟨call, hcall, .inl hdelegate⟩
        · exact absurd htarget (hnone call hcall hdata).2
      · rintro ⟨call, hcall, hdelegate | ⟨hshown, hdata⟩⟩
        · exact ⟨call, hcall, .inl hdelegate⟩
        · exact absurd (hshown ▸ hspelled.symm) (hnone call hcall hdata).1
    · obtain ⟨call', hcall', hdata', hshown⟩ := hall spelling hspelled
      exact ⟨fun _ => ⟨call', hcall', .inr ⟨hshown, hdata'⟩⟩,
        fun _ => ⟨call, hcall, .inr ⟨htarget, hdata⟩⟩⟩

/-- The check depends only on the effective call, whatever the spelling, exactly
for the transactions that satisfy `Judged`. -/
theorem answersEffectively_iff_judged
    (hwallet : store.wallets.find tx.accountID.walletID = some wallet)
    (hwf : walletAddress.WellFormed) :
    AnswersEffectively services store tx wallet walletAddress now ↔
      Judged services store tx walletAddress := by
  have hid : wallet.id = tx.accountID.walletID := (Table.mem_of_find hwallet).2
  unfold Judged
  cases hbatch : batchArguments services tx with
  | error trap =>
      simp only [iff_false]
      intro h
      obtain ⟨accounts, hanswer⟩ := h tx walletAddress (.refl tx) (.refl _)
      obtain ⟨-, hfind, hfindWallet⟩ :=
        find_respelledStore store hid (.refl tx) walletAddress
      rw [isDangerous_of_error hfind hfindWallet rfl hbatch] at hanswer
      cases hanswer
  | ok calls =>
      cases calls with
      | none => exact answersEffectively_single_iff hid hbatch hwf
      | some calls => exact answersEffectively_batch_iff hid hbatch

/-! ## A call to the wallet that goes unnoticed -/

/-- A wallet that knows its address with the checksum. -/
def checksummedWallet : Wallet where
  id := "wallet"
  state := .readyToUse
  owners := []
  address := some ⟨"0x5aAeb6053F3E94C9b9A09f33669435E7Ef1BeAed"⟩
  feePaymentTokenAddress := none
  confirmationCount := 1
  masterCopyAddress := none

/-- A call of the wallet's own `changeThreshold(1)`, its address in lower case. -/
def lowerCaseCall : Transaction :=
  { Transaction.new "transaction" .transfer ⟨Token.Ether.id, "wallet"⟩ 0 with
    sender := some ⟨"0x5aAeb6053F3E94C9b9A09f33669435E7Ef1BeAed"⟩
    recipient := some ⟨"0x5aaeb6053f3e94c9b9a09f33669435e7ef1beaed"⟩
    amount := some (TokenAmount.ether 0)
    operation := some .call
    data := some ([0x69, 0x4e, 0x80, 0xc3] ++ List.replicate 31 0 ++ [1]) }

/-- The transaction and its wallet, stored. -/
def lowerCaseStore : Store :=
  .ofWallets (Table.empty.save checksummedWallet) (Table.empty.save lowerCaseCall)

/-- Services without batch contracts. -/
def plainServices : Services :=
  .offline (.ofRecording ⟨[], [], [], []⟩) ⟨Address.zero, [], []⟩

/-- The check does not warn about the call, and the wallet is called. -/
theorem lowerCaseCall_not_answersEffectively :
    (isDangerous plainServices lowerCaseStore lowerCaseCall.id 0).map Prod.snd = .ok false ∧
      effectivelyDangerous plainServices lowerCaseCall
        ⟨"0x5aAeb6053F3E94C9b9A09f33669435E7Ef1BeAed"⟩ = true ∧
      ¬ AnswersEffectively plainServices lowerCaseStore lowerCaseCall checksummedWallet
        ⟨"0x5aAeb6053F3E94C9b9A09f33669435E7Ef1BeAed"⟩ 0 := by
  have heffective : effectivelyDangerous plainServices lowerCaseCall
      ⟨"0x5aAeb6053F3E94C9b9A09f33669435E7Ef1BeAed"⟩ = true := by decide +kernel
  refine ⟨by decide +kernel, heffective, fun h => ?_⟩
  obtain ⟨accounts, hanswer⟩ := h _ _ (.refl lowerCaseCall) (.refl _)
  have hsilent : (isDangerous plainServices (respelledStore lowerCaseStore checksummedWallet
      lowerCaseCall ⟨"0x5aAeb6053F3E94C9b9A09f33669435E7Ef1BeAed"⟩) lowerCaseCall.id 0).map
        Prod.snd = .ok false := by decide +kernel
  rw [hanswer, heffective] at hsilent
  cases hsilent

/-- A transfer of Ether without data is judged rightly in every spelling. -/
theorem etherTransfer_answersEffectively :
    AnswersEffectively plainServices lowerCaseStore { lowerCaseCall with data := none }
      checksummedWallet ⟨"0x5aAeb6053F3E94C9b9A09f33669435E7Ef1BeAed"⟩ 0 :=
  (answersEffectively_iff_judged (by decide +kernel) (by decide +kernel)).mpr (.inr (.inl rfl))

end TransactionService

end SafeWallet
