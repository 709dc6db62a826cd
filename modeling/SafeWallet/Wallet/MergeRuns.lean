/-
# Runs of refreshes and post-processing

A transaction that changes the owners has succeeded. The relay reports the owners
before or after it, and the services run their post-processing, in any order, cut off
by crashes at any point. In runs whose calls do not overlap the stored owners are
those of the contract with the roles of the transaction, if the relay reports the
change only after its post-processing was saved and nothing else from then on.
-/

import SafeWallet.Recovery.RecoveredOwners
import SafeWallet.Wallet.OwnerMerge

namespace SafeWallet

/-! ## Reading the arguments back -/

namespace SafeOwnerManagerContractProxy

open ContractProxy

variable {kit : EthereumKit}

theorem decodeSwapOwnerArguments_swapOwner (prevOwner old : Address) {new : Address}
    (hnew : new.WellFormed) :
    (decodeSwapOwnerArguments kit (swapOwner kit prevOwner old new)).map (fun arguments =>
      arguments.2.2) = some new.normalized := by
  have hlast : decodeAddress (encodeAddress new) = new.normalized := by
    simpa using decodeAddress_encodeAddress hnew []
  have hdrop : List.drop 64 (encodeAddress prevOwner ++ (encodeAddress old ++ encodeAddress new)) =
      encodeAddress new := by
    rw [← List.append_assoc, List.drop_left' (by simp)]
  simp [decodeSwapOwnerArguments, swapOwner, invocation, hdrop, hlast]

theorem decodeAddOwnerArguments_addOwner {owner : Address} (howner : owner.WellFormed)
    {threshold : ℕ} (hthreshold : threshold < 2 ^ 63) :
    decodeAddOwnerArguments kit (addOwner kit owner threshold) =
      .ok (some (owner.normalized, threshold)) := by
  have hnumber : decodeUInt (encodeUInt threshold) = threshold := by
    have hlt : threshold < 2 ^ 256 := hthreshold.trans (by norm_num)
    have hword := decodeUInt_encodeUInt threshold []
    rwa [List.append_nil, Nat.mod_eq_of_lt hlt] at hword
  simp [decodeAddOwnerArguments, addOwner, invocation, hnumber, Trapping.toInt_of_lt hthreshold,
    decodeAddress_encodeAddress howner]

end SafeOwnerManagerContractProxy

/-! ## Transactions that change owners -/

open SafeOwnerManagerContractProxy

/-- A transaction of the program, what its post-processing makes of it, and what it did
to the contract. The owners of a new phrase are new to the contract. -/
inductive Performs (services : Services) (tx : Transaction) :
    OwnerUpdate → OwnerManager → OwnerManager → Prop
  | connect {owner : Address} {threshold : ℕ} {role : OwnerRole} {manager manager' : OwnerManager}
      (type : tx.type ∈ [.connectAuthenticator, .connectStatusKeycard])
      (role_eq : tx.type.correspondingOwnerRole = some role) (wellFormed : owner.WellFormed)
      (fits : threshold < 2 ^ 63) (data : tx.data = some (addOwner services.kit owner threshold))
      (executed : manager.execute (addOwner services.kit owner threshold) = some manager') :
      Performs services tx (.connect ⟨services.kit.checksummed owner.data, role⟩) manager manager'
  | replace {prev old owner : Address} {role : OwnerRole} {manager manager' : OwnerManager}
      (type : tx.type ∈ [.replaceTwoFAWithAuthenticator, .replaceTwoFAWithStatusKeycard])
      (role_eq : tx.type.correspondingOwnerRole = some role) (wellFormed : owner.WellFormed)
      (data : tx.data = some (swapOwner services.kit prev old owner))
      (executed : manager.execute (swapOwner services.kit prev old owner) = some manager') :
      Performs services tx (.replace ⟨services.kit.checksummed owner.data, role⟩) manager manager'
  | disconnect {prev old : Address} {threshold : ℕ} {manager manager' : OwnerManager}
      (type : tx.type ∈ [.disconnectAuthenticator, .disconnectStatusKeycard])
      (data : tx.data = some (removeOwner services.kit prev old threshold))
      (executed : manager.execute (removeOwner services.kit prev old threshold) = some manager') :
      Performs services tx (.disconnect old.onChain) manager manager'
  | replacePhrase {recipient : Address} {data : Data} {first second : MultiSendTransaction}
      {prev₁ old₁ new₁ prev₂ old₂ new₂ : Address} {manager manager' : OwnerManager}
      (type : tx.type = .replaceRecoveryPhrase) (recipient_eq : tx.recipient = some recipient)
      (data_eq : tx.data = some data)
      (batch : MultiSend.decodeMultiSendArguments services.kit
        services.metadata.multiSendContractAddress services.metadata.multiSend recipient data =
          .ok (some [first, second]))
      (first_eq : first.data = swapOwner services.kit prev₁ old₁ new₁)
      (second_eq : second.data = swapOwner services.kit prev₂ old₂ new₂)
      (wellFormed₁ : new₁.WellFormed) (wellFormed₂ : new₂.WellFormed)
      (old_mem : old₂.onChain ∈ manager.owners) (fresh : new₂.onChain ∉ manager.owners)
      (executed : manager.executeAll [first.data, second.data] = some manager') :
      Performs services tx (.replacePhrase (services.kit.checksummed new₁.data)
        (services.kit.checksummed new₂.data)) manager manager'

theorem onChain_checksummed {kit : EthereumKit} {a : Address} (h : a.WellFormed) :
    (kit.checksummed a.data).WellFormed ∧ (kit.checksummed a.data).onChain = a.onChain := by
  obtain ⟨hwf, hvalue⟩ := kit.checksummed_spec h.data_spec.1
  exact ⟨hwf, by rw [Address.onChain, hvalue]; rfl⟩

theorem formatted_normalized {kit : EthereumKit} {a : Address} (h : a.WellFormed) :
    kit.formatted a.normalized.value = some (kit.checksummed a.data) := by
  obtain ⟨hwf, hdata⟩ := h.respelled_normalized.wellFormed h
  obtain ⟨_, heq, rfl, -⟩ := kit.formatted_of_wellFormed hwf
  rw [heq, hdata]

theorem OwnerManager.swapOwner_spec {manager manager' : OwnerManager}
    {prev old new : ChainAddress} (h : manager.swapOwner prev old new = some manager') :
    new ∉ manager.owners ∧
      ∀ x, x ∈ manager'.owners ↔ x = new ∨ (x ∈ manager.owners ∧ x ≠ old) := by
  unfold OwnerManager.swapOwner at h
  split at h
  · rename_i hswap
    cases h
    exact ⟨hswap.1.2.2, fun x => Linked.mem_replace manager.nodup hswap.2.mem⟩
  · cases h

theorem OwnerManager.removeOwner_spec {manager manager' : OwnerManager}
    {prev owner : ChainAddress} {threshold : BitVec 256}
    (h : manager.removeOwner prev owner threshold = some manager') : owner ∉ manager'.owners := by
  unfold OwnerManager.removeOwner at h
  split at h
  · cases h
    exact manager.nodup.not_mem_erase
  · cases h

/-- What the transaction did to the contract fits what the post-processing makes of it. -/
structure OwnerUpdate.Describes (update : OwnerUpdate) (before after : List ChainAddress) : Prop where
  proper : update.Proper
  added_before : ∀ new ∈ update.added, new.onChain ∉ before
  added_after : ∀ new ∈ update.added, new.onChain ∈ after
  removed : ∀ old, update = .disconnect old → old ∉ after

namespace Performs

variable {services : Services} {tx : Transaction} {update : OwnerUpdate}
  {manager manager' : OwnerManager}

/-- One new owner with the role of an authenticator. -/
theorem proper_single {new : Owner} (h : new.address.WellFormed)
    (hrole : tx.type.correspondingOwnerRole = some new.role)
    (hupdate : update = .connect new ∨ update = .replace new) : update.Proper := by
  have htwoFA : new.role = .browserExtension ∨ new.role = .keycard := by
    unfold TransactionType.correspondingOwnerRole at hrole
    split at hrole
    all_goals first
      | exact .inl (Option.some.inj hrole).symm
      | exact .inr (Option.some.inj hrole).symm
      | cases hrole
  have hadded : update.added = [new] := by rcases hupdate with rfl | rfl <;> rfl
  refine ⟨?_, ?_, ?_⟩
  · rw [hadded]
    exact ⟨by simpa using h, List.nodup_singleton _⟩
  · rw [hadded]
    rintro o ho
    rw [List.mem_singleton.mp ho]
    rcases htwoFA with heq | heq
    · simp [heq]
    · simp [heq]
  · intro other hother
    have hsame : other = new := by
      rcases hupdate with rfl | rfl <;> rcases hother with heq | heq <;> cases heq <;> rfl
    rwa [hsame]

theorem describes (h : Performs services tx update manager manager')
    (hselectors : OwnerSelectors services.kit) :
    update.Describes manager.owners manager'.owners := by
  cases h with
  | @connect owner threshold role _ _ type role_eq wellFormed fits data executed =>
      rw [execute_addOwner hselectors] at executed
      obtain ⟨hadd, -, howners⟩ := OwnerManager.add_spec executed
      obtain ⟨hwf, honChain⟩ := @onChain_checksummed services.kit _ wellFormed
      refine ⟨@proper_single tx _ ⟨_, role⟩ hwf role_eq (.inl rfl), ?_, ?_, fun _ heq => by cases heq⟩
      · intro new hnew
        rw [List.mem_singleton.mp hnew, Owner.onChain, honChain]
        exact hadd.2.2
      · intro new hnew
        rw [List.mem_singleton.mp hnew, Owner.onChain, honChain, howners]
        exact List.mem_cons_self
  | @replace prev old owner role _ _ type role_eq wellFormed data executed =>
      rw [execute_swapOwner hselectors] at executed
      obtain ⟨hnew, howners⟩ := OwnerManager.swapOwner_spec executed
      obtain ⟨hwf, honChain⟩ := @onChain_checksummed services.kit _ wellFormed
      refine ⟨@proper_single tx _ ⟨_, role⟩ hwf role_eq (.inr rfl), ?_, ?_, fun _ heq => by cases heq⟩
      · intro new hmem
        rw [List.mem_singleton.mp hmem, Owner.onChain, honChain]
        exact hnew
      · intro new hmem
        rw [List.mem_singleton.mp hmem, Owner.onChain, honChain]
        exact (howners _).mpr (.inl rfl)
  | @disconnect prev old threshold _ _ type data executed =>
      rw [execute_removeOwner hselectors] at executed
      refine ⟨⟨⟨by simp [OwnerUpdate.added], by simp [OwnerUpdate.added]⟩,
        by simp [OwnerUpdate.added], by simp⟩, by simp [OwnerUpdate.added],
        by simp [OwnerUpdate.added], fun old heq => ?_⟩
      cases heq
      exact OwnerManager.removeOwner_spec executed
  | @replacePhrase recipient data first second prev₁ old₁ new₁ prev₂ old₂ new₂ _ _ type recipient_eq
      data_eq batch first_eq second_eq wellFormed₁ wellFormed₂ old_mem fresh executed =>
      rw [first_eq, second_eq] at executed
      obtain ⟨middle, hmiddle, hlast⟩ : ∃ middle,
          manager.execute (swapOwner services.kit prev₁ old₁ new₁) = some middle ∧
          middle.execute (swapOwner services.kit prev₂ old₂ new₂) = some manager' := by
        simpa [OwnerManager.executeAll, Option.bind_eq_some_iff] using executed
      rw [execute_swapOwner hselectors] at hmiddle hlast
      obtain ⟨hnew₁, howners₁⟩ := OwnerManager.swapOwner_spec hmiddle
      obtain ⟨hnew₂, howners₂⟩ := OwnerManager.swapOwner_spec hlast
      obtain ⟨hwf₁, honChain₁⟩ := @onChain_checksummed services.kit _ wellFormed₁
      obtain ⟨hwf₂, honChain₂⟩ := @onChain_checksummed services.kit _ wellFormed₂
      have hne : new₁.onChain ≠ new₂.onChain :=
        fun heq => hnew₂ ((howners₁ _).mpr (.inl heq.symm))
      have hadded : ∀ {p : Owner → Prop}, p ⟨services.kit.checksummed new₁.data, .paperWallet⟩ →
          p ⟨services.kit.checksummed new₂.data, .paperWalletDerived⟩ →
          ∀ new ∈ (OwnerUpdate.replacePhrase (services.kit.checksummed new₁.data)
            (services.kit.checksummed new₂.data)).added, p new := by
        intro p h₁ h₂ new hnew
        rcases List.mem_cons.mp hnew with rfl | hnew
        · exact h₁
        · rw [List.mem_singleton.mp hnew]
          exact h₂
      refine ⟨⟨⟨hadded hwf₁ hwf₂, ?_⟩, hadded (by simp) (by simp), fun _ heq => ?_⟩, ?_, ?_,
        fun _ heq => by cases heq⟩
      · simp [OwnerUpdate.added, Owner.onChain, honChain₁, honChain₂, hne]
      · rcases heq with heq | heq <;> cases heq
      · apply hadded
        · rwa [Owner.onChain, honChain₁]
        · rwa [Owner.onChain, honChain₂]
      · apply hadded
        · rw [Owner.onChain, honChain₁, howners₂, howners₁]
          refine .inr ⟨.inl rfl, fun heq => hnew₁ (heq ▸ old_mem)⟩
        · rw [Owner.onChain, honChain₂, howners₂]
          exact .inl rfl

/-- The types of the transactions tell the cases apart. -/
theorem of_connect (h : Performs services tx update manager manager')
    (htype : tx.type ∈ [.connectAuthenticator, .connectStatusKeycard]) :
    ∃ owner threshold role, update = .connect ⟨services.kit.checksummed owner.data, role⟩ ∧
      tx.type.correspondingOwnerRole = some role ∧ owner.WellFormed ∧ threshold < 2 ^ 63 ∧
      tx.data = some (addOwner services.kit owner threshold) := by
  cases h with
  | @connect owner threshold role _ _ type role_eq wellFormed fits data _ =>
      exact ⟨owner, threshold, role, rfl, role_eq, wellFormed, fits, data⟩
  | replace type => rcases List.mem_pair.mp type with heq | heq <;> simp [heq] at htype
  | disconnect type => rcases List.mem_pair.mp type with heq | heq <;> simp [heq] at htype
  | replacePhrase type => simp [type] at htype

theorem of_replace (h : Performs services tx update manager manager')
    (htype : tx.type ∈ [.replaceTwoFAWithAuthenticator, .replaceTwoFAWithStatusKeycard]) :
    ∃ prev old owner role, update = .replace ⟨services.kit.checksummed owner.data, role⟩ ∧
      tx.type.correspondingOwnerRole = some role ∧ owner.WellFormed ∧
      tx.data = some (swapOwner services.kit prev old owner) := by
  cases h with
  | connect type => rcases List.mem_pair.mp type with heq | heq <;> simp [heq] at htype
  | @replace prev old owner role _ _ type role_eq wellFormed data _ =>
      exact ⟨prev, old, owner, role, rfl, role_eq, wellFormed, data⟩
  | disconnect type => rcases List.mem_pair.mp type with heq | heq <;> simp [heq] at htype
  | replacePhrase type => simp [type] at htype

theorem of_disconnect (h : Performs services tx update manager manager')
    (htype : tx.type ∈ [.disconnectAuthenticator, .disconnectStatusKeycard]) :
    ∃ old, update = .disconnect old := by
  cases h with
  | connect type => rcases List.mem_pair.mp type with heq | heq <;> simp [heq] at htype
  | replace type => rcases List.mem_pair.mp type with heq | heq <;> simp [heq] at htype
  | disconnect => exact ⟨_, rfl⟩
  | replacePhrase type => simp [type] at htype

theorem of_replacePhrase (h : Performs services tx update manager manager')
    (htype : tx.type = .replaceRecoveryPhrase) :
    ∃ recipient data, tx.recipient = some recipient ∧ tx.data = some data ∧
      ∃ new₁ new₂ swaps, update = .replacePhrase new₁ new₂ ∧
        ReplaceRecoveryPhraseDomainService.decodeSwaps services recipient data =
          .ok (some swaps) ∧
        ReplaceRecoveryPhraseDomainService.decodeNewOwners services swaps =
          some (new₁, new₂) := by
  cases h with
  | connect type => simp [htype] at type
  | replace type => simp [htype] at type
  | disconnect type => simp [htype] at type
  | @replacePhrase recipient data first second prev₁ old₁ new₁ prev₂ old₂ new₂ _ _ type recipient_eq
      data_eq batch first_eq second_eq wellFormed₁ wellFormed₂ old_mem fresh executed =>
      have hswaps : ReplaceRecoveryPhraseDomainService.decodeSwaps services recipient data =
          .ok (some (first.data, second.data)) := by
        simp [ReplaceRecoveryPhraseDomainService.decodeSwaps, batch]
      refine ⟨recipient, data, recipient_eq, data_eq, _, _, _, rfl, hswaps, ?_⟩
      have hswap : ∀ {prev old new : Address}, new.WellFormed → ∃ arguments,
          decodeSwapOwnerArguments services.kit (swapOwner services.kit prev old new) =
            some arguments ∧ arguments.2.2 = new.normalized := by
        intro prev old new hnew
        exact Option.map_eq_some_iff.mp (decodeSwapOwnerArguments_swapOwner prev old hnew)
      obtain ⟨arguments₁, hdecode₁, hnew₁⟩ := @hswap prev₁ old₁ new₁ wellFormed₁
      obtain ⟨arguments₂, hdecode₂, hnew₂⟩ := @hswap prev₂ old₂ new₂ wellFormed₂
      simp [ReplaceRecoveryPhraseDomainService.decodeNewOwners, first_eq, second_eq, hdecode₁,
        hdecode₂, hnew₁, hnew₂, formatted_normalized wellFormed₁, formatted_normalized wellFormed₂]

end Performs

/-! ## The setting -/

/-- A successful transaction that changes the owners of a wallet, and what the relay
reports before and after it. -/
structure Merge (services : Services) where
  walletID : WalletID
  tx : Transaction
  update : OwnerUpdate
  manager : OwnerManager
  changed : OwnerManager
  before : SafeInfo
  after : SafeInfo
  selectors : OwnerSelectors services.kit
  success : tx.status = .success
  account : tx.accountID.walletID = walletID
  performs : Performs services tx update manager changed
  owners_before : before.owners = manager.owners
  owners_after : after.owners = changed.owners
  address : after.address = before.address

namespace Merge

open TransactionRelayService OwnerUpdate

variable {services : Services} (m : Merge services)

/-- The address of the wallet. -/
def safe : Address := services.kit.address m.before.address

/-- A refresh has reported the change. -/
def Seen (app : App) : Prop := .merged m.safe m.after ∈ app.log

/-- The post-processing is over. -/
def Processed (app : App) : Prop := .postProcessed m.tx.id ∈ app.log

/-- The stored owners. -/
def owners (app : App) : List Owner := storedOwners app.store m.walletID

/-- The stored owners are different, are those of the contract, and the new ones have
the roles of the transaction. -/
structure Merged (app : App) : Prop where
  distinct : ((m.owners app).map Owner.onChain).Nodup
  onChain : ∀ x, x ∈ (m.owners app).map Owner.onChain ↔ x ∈ m.after.owners
  carried : m.update.Carried (m.owners app)

/-- Once both sources have had their say, the owners are merged. -/
def Settles (app : App) : Prop := m.Processed app → m.Seen app → m.Merged app

/-- The calls that write the owners. -/
inductive OwnerCall : Call Unit → Prop
  | refresh : OwnerCall (updateSafeInfo services.kit m.safe)
  | connect : OwnerCall (do let _ ← ConnectTwoFADomainService.postProcess services m.tx.id)
  | replace : OwnerCall (do let _ ← ReplaceTwoFADomainService.postProcess services m.tx.id)
  | disconnect : OwnerCall (do let _ ← DisconnectTwoFADomainService.postProcess m.tx.id)
  | replacePhrase :
      OwnerCall (do let _ ← ReplaceRecoveryPhraseDomainService.postProcess services m.tx.id)

/-- The calls are started in any order and number, and cut off by crashes. -/
def system : System App Outside Place where
  starts app call app' := app' = app ∧ m.OwnerCall call
  moves _ _ := False
  restart := App.restart
  boot := .pure ()

/-- A wallet that is stored as the contract was before the transaction. -/
structure Matches (store : Store) : Prop where
  transaction : store.transactions.find m.tx.id = some m.tx
  wallet : ∃ wallet, store.wallets.find m.walletID = some wallet ∧
    wallet.state.isReadyToUse = true ∧ wallet.address = some m.safe ∧ Clean wallet.owners ∧
    ∀ x, x ∈ wallet.owners.map Owner.onChain ↔ x ∈ m.before.owners

/-- No other wallet has the address, and a removed owner is the only one whose role the
post-processing looks for. -/
structure Sole (store : Store) : Prop where
  address : ∀ wallet ∈ store.wallets.rows, wallet.address = some m.safe → wallet.id = m.walletID
  disconnected : ∀ old, m.update = .disconnect old →
    m.update.Held (storedOwners store m.walletID)

/-- Where the relay may be merged: it reports the time before the change only until the
post-processing was saved and until it has reported the change, and the change only from
the post-processing on. -/
def InOrder (app : App) : Place → Prop
  | .merging _ info =>
    (info = m.before ∧ ¬ m.Seen app ∧
      (m.update.added ≠ [] → ¬ m.update.Carried (m.owners app))) ∨
    (info = m.after ∧ m.update.Carried (m.owners app))
  | _ => True

/-! ## The invariant -/

/-- A version of the wallet as it may be stored. -/
structure Good (seen : Prop) (wallet : Wallet) : Prop where
  id : wallet.id = m.walletID
  ready : wallet.state.isReadyToUse = true
  address : wallet.address = some m.safe
  clean : Clean wallet.owners
  phase : m.update.Applied m.after.owners seen wallet.owners ∨ m.update.Pending seen wallet.owners

/-- What holds between two calls. -/
structure Consistent (app : App) : Prop where
  transaction : app.store.transactions.find m.tx.id = some m.tx
  alone : ∀ wallet ∈ app.store.wallets.rows, wallet.address = some m.safe →
    wallet.id = m.walletID
  wallet : ∃ wallet, app.store.wallets.find m.walletID = some wallet ∧ m.Good (m.Seen app) wallet

variable {m} {app : App} {wallet : Wallet} {seen : Prop}

theorem describes : m.update.Describes m.before.owners m.after.owners := by
  rw [m.owners_before, m.owners_after]
  exact m.performs.describes m.selectors

theorem before_ne_after (hnew : m.update.added ≠ []) : m.before ≠ m.after := by
  intro heq
  obtain ⟨new, hnew⟩ := List.exists_mem_of_ne_nil _ hnew
  exact m.describes.added_before new hnew (heq ▸ m.describes.added_after new hnew)

/-- The post-processing makes a good version of a good one. -/
theorem Good.process (h : m.Good seen wallet) {confirmationCount : ℕ} :
    m.Good seen { wallet with
      owners := m.update.process wallet
      confirmationCount := confirmationCount } := by
  have hproper := m.describes.proper
  obtain ⟨hclean, hphase⟩ : Clean (m.update.process wallet) ∧
      m.update.Applied m.after.owners seen (m.update.process wallet) := by
    rcases h.phase with happlied | hpending
    · exact happlied.process hproper h.clean m.describes.removed
    · exact hpending.process hproper h.clean
  exact ⟨h.id, h.ready, h.address, hclean, .inl hphase⟩

/-- A refresh that reports the change completes the merge. -/
theorem Good.refresh_after (h : m.Good seen wallet) (hcarried : m.update.Carried wallet.owners) :
    m.Good True (withSafeInfo services.kit wallet m.after) := by
  obtain ⟨hid, hstate, haddress⟩ := @withSafeInfo_fields services.kit wallet m.after
  have happlied := h.phase.resolve_right fun hpending => hpending.not_carried hcarried
  refine ⟨hid.trans h.id, by rw [hstate]; exact h.ready, ?_, ?_, .inl ?_⟩
  · rw [haddress, m.address]
    rfl
  · apply withSafeInfo_clean h.clean
    rw [m.owners_after]
    exact m.changed.nodup
  · exact happlied.refresh m.describes.proper h.clean m.describes.added_after True

/-- A refresh that reports the time before leaves the change pending. -/
theorem Good.refresh_before (h : m.Good seen wallet) (hunseen : ¬ seen)
    (hnot : m.update.added ≠ [] → ¬ m.update.Carried wallet.owners) :
    m.Good seen (withSafeInfo services.kit wallet m.before) := by
  obtain ⟨hid, hstate, haddress⟩ := @withSafeInfo_fields services.kit wallet m.before
  refine ⟨hid.trans h.id, by rw [hstate]; exact h.ready, haddress, ?_, ?_⟩
  · apply withSafeInfo_clean h.clean
    rw [m.owners_before]
    exact m.manager.nodup
  · rcases h.phase with happlied | hpending
    · have hnone : m.update.added = [] := by
        by_contra hnew
        exact hnot hnew happlied.carried
      exact .inl (happlied.refresh_unseen m.describes.proper hnone hunseen)
    · exact .inr (hpending.refresh h.clean m.describes.added_before)

theorem Good.congr {seen' : Prop} (h : m.Good seen wallet) (hiff : seen ↔ seen') :
    m.Good seen' wallet := by
  rwa [← propext hiff]

theorem Good.withCount (h : m.Good seen wallet) (confirmationCount : ℕ) :
    m.Good seen { wallet with confirmationCount := confirmationCount } :=
  ⟨h.id, h.ready, h.address, h.clean, h.phase⟩

/-- Saving a good version. -/
theorem Consistent.save (h : m.Consistent app) (hgood : m.Good (m.Seen app) wallet) :
    m.Consistent (app.saveWallet wallet) where
  transaction := h.transaction
  alone other hother haddress := by
    rcases Table.mem_rows_save.mp hother with rfl | ⟨hother, -⟩
    · exact hgood.id
    · exact h.alone other hother haddress
  wallet := by
    refine ⟨wallet, ?_, hgood.congr (by simp [Seen])⟩
    rw [App.saveWallet_wallets, Table.find_save, if_pos hgood.id]

/-- What neither touches the wallets nor the transactions nor reports the change. -/
theorem Consistent.frame {app' : App} (h : m.Consistent app)
    (htransactions : app'.store.transactions = app.store.transactions)
    (hwallets : app'.store.wallets = app.store.wallets) (hseen : m.Seen app ↔ m.Seen app') :
    m.Consistent app' where
  transaction := by rw [htransactions, h.transaction]
  alone := by
    rw [hwallets]
    exact h.alone
  wallet := by
    obtain ⟨wallet, hfind, hgood⟩ := h.wallet
    exact ⟨wallet, by rw [hwallets, hfind], hgood.congr hseen⟩

/-! ## The calls keep it -/

/-- Calls that are not interrupted, in the order of `InOrder`, keep the invariant. -/
def merging (m : Merge services) : Discipline App Place where
  rely := Eq
  guarantee _ app' := m.Consistent app'
  guard := m.InOrder
  rely_refl _ := rfl
  rely_trans h h' := h.trans h'

/-- A call that keeps the invariant, and whose result satisfies `post`. -/
def Keeps {α : Type} (m : Merge services) (call : Call α) (post : α → App → Prop) (app : App) :
    Prop :=
  call.Sound m.merging post app

namespace Keeps

variable {α β : Type} {post : α → App → Prop} {post' : β → App → Prop}

theorem pure {a : α} (h : post a app) : Keeps m (Process.pure a) post app := by
  rintro _ rfl
  exact h

theorem bind {call : Call α} {k : α → Call β}
    (h : Keeps m call (fun a app' => Keeps m (k a) post' app') app) :
    Keeps m (call >>= k) post' app :=
  Process.Sound.bind h

theorem query {place : Place} {f : App → Outside → α} (h : m.Consistent app)
    (hpost : ∀ outside, post (f app outside) app) : Keeps m (Process.query place f) post app := by
  rintro _ outside rfl -
  exact ⟨h, fun _ heq => heq ▸ hpost outside⟩

theorem read {f : Store → α} (h : m.Consistent app) (hpost : post (f app.store) app) :
    Keeps m (Call.read f) post app :=
  query h fun _ => hpost

theorem lift {value : Trapping α} (hpost : ∀ a, value = .ok a → post a app) :
    Keeps m (Process.lift value) post app := by
  cases value with
  | ok a => exact pure (hpost a rfl)
  | error reason => trivial

theorem update {place : Place} {f : App → App} {post : Unit → App → Prop}
    (h : m.InOrder app place → m.Consistent (f app) ∧ post () (f app)) :
    Keeps m (Process.update place f) post app := by
  rintro _ outside rfl hguard
  obtain ⟨hconsistent, hpost⟩ := h hguard
  exact ⟨hconsistent, fun _ heq => heq ▸ hpost⟩

theorem write {f : Store → Store} {post : Unit → App → Prop} (h : m.Consistent app)
    (htransactions : (f app.store).transactions = app.store.transactions)
    (hwallets : (f app.store).wallets = app.store.wallets)
    (hpost : ∀ app', m.Consistent app' → post () app') : Keeps m (Call.write f) post app := by
  apply update
  intro _
  have h' : m.Consistent (app.modify f) := h.frame htransactions hwallets Iff.rfl
  exact ⟨h', hpost _ h'⟩

theorem saveWallet {wallet : Wallet} {post : Unit → App → Prop} (h : m.Consistent app)
    (hgood : m.Good (m.Seen app) wallet)
    (hpost : ∀ app', m.Consistent app' → m.Good (m.Seen app') wallet → post () app') :
    Keeps m (Call.saveWallet wallet) post app := by
  apply update
  intro _
  exact ⟨h.save hgood, hpost _ (h.save hgood) (hgood.congr (by simp [Seen]))⟩

/-- The refresh finds the wallet by its address. -/
theorem findWallet_safe (h : m.Consistent app)
    (hstored : app.store.wallets.find m.walletID = some wallet)
    (hgood : m.Good seen wallet) : app.store.findWallet m.safe = some wallet := by
  cases hfound : app.store.findWallet m.safe with
  | none =>
      have hnone := List.find?_eq_none.mp hfound wallet (Table.mem_of_find hstored).1
      simp [hgood.address] at hnone
  | some found =>
      have hmem := List.mem_of_find?_eq_some hfound
      have hid := h.alone found hmem (by simpa using List.find?_some hfound)
      rw [← hid, Table.find_of_mem hmem] at hstored
      exact hstored

/-- What the refresh saves, where it may. -/
theorem merge {info : SafeInfo} (h : m.Consistent app)
    (hstored : app.store.wallets.find m.walletID = some wallet)
    (hgood : m.Good (m.Seen app) wallet) (hguard : m.InOrder app (.merging m.safe info)) :
    m.Consistent ((app.saveWallet (withSafeInfo services.kit wallet info)).observe
      (.merged m.safe info)) := by
  have howners : m.owners app = wallet.owners := by simp [owners, storedOwners, hstored]
  have hcomplete : m.update.Carried wallet.owners → info = m.after →
      m.Consistent ((app.saveWallet (withSafeInfo services.kit wallet info)).observe
        (.merged m.safe info)) := by
    rintro hcarried rfl
    have hnew := hgood.refresh_after hcarried
    refine ⟨h.transaction, ?_, _, ?_, hnew.congr (by simp [Seen])⟩
    · intro other hother haddress
      rcases Table.mem_rows_save.mp hother with rfl | ⟨hother, -⟩
      · exact hnew.id
      · exact h.alone other hother haddress
    · exact (Table.find_save).trans (if_pos hnew.id)
  rcases hguard with ⟨rfl, hunseen, hnot⟩ | ⟨hafter, hcarried⟩
  · by_cases heq : m.before = m.after
    · have hnone : m.update.added = [] := by
        by_contra hnew
        exact before_ne_after hnew heq
      exact hcomplete (by simp [Carried, hnone]) heq
    · have hsaved := h.save (hgood.refresh_before hunseen (by rwa [← howners]))
      refine hsaved.frame rfl rfl ?_
      simp [Seen, Ne.symm heq]
  · exact hcomplete (by rwa [← howners]) hafter

theorem updateSafeInfo (h : m.Consistent app) :
    Keeps m (updateSafeInfo services.kit m.safe) (fun _ _ => True) app := by
  obtain ⟨stored, hstored, hgood⟩ := h.wallet
  apply bind
  apply read h
  simp only [findWallet_safe h hstored hgood, hgood.ready, if_true]
  apply bind
  apply query h
  intro outside
  cases hinfo : outside.safeInfo m.safe with
  | none => exact pure trivial
  | some info => exact update fun hguard => ⟨merge h hstored hgood hguard, trivial⟩

theorem finish (h : m.Consistent app) (completed : Bool) :
    Keeps m (ReplaceTwoFADomainService.finish m.tx.id completed) (fun _ _ => True) app := by
  cases completed with
  | false => exact pure trivial
  | true =>
      have hobserved : m.Consistent (app.observe (.postProcessed m.tx.id)) :=
        h.frame rfl rfl (by simp [Seen])
      rintro _ outside rfl -
      refine ⟨hobserved, ?_⟩
      by_cases hregistered : m.tx.id ∈ app.store.transactionMonitors
      · simp only [hregistered, decide_true]
        exact bind (write hobserved rfl rfl fun _ _ => pure trivial)
      · simp only [hregistered, decide_false]
        exact pure trivial

theorem contractProxy (h : m.Consistent app) :
    Keeps m ReplaceTwoFADomainService.contractProxy (fun _ app' => app' = app) app := by
  apply bind
  apply query h
  intro outside
  apply bind
  apply lift
  intro wallet _
  apply bind
  apply lift
  intro address _
  exact pure rfl

theorem deletePair {walletID : WalletID} {other : Address} (h : m.Consistent app) :
    Keeps m (CommunicationDomainService.deletePair walletID other) (fun _ app' => app' = app)
      app := by
  apply bind
  apply query h
  intro outside
  apply bind
  apply lift
  intro wallet _
  apply bind
  apply lift
  intro device _
  apply bind
  apply read h
  split
  · exact pure rfl
  · exact query h fun _ => rfl

/-- Taking the old authenticator off the object changes nothing stored. -/
theorem removeOldTwoFAOwner (h : m.Consistent app) :
    Keeps m (ReplaceTwoFADomainService.removeOldTwoFAOwner wallet)
      (fun result app' => app' = app ∧ ∀ object, result = some object → object =
        { wallet with
          owners := wallet.owners.filter fun o =>
            wallet.twoFAOwner.map Owner.role ≠ some o.role }) app := by
  unfold ReplaceTwoFADomainService.removeOldTwoFAOwner
  cases hold : wallet.twoFAOwner with
  | none =>
      apply pure
      refine ⟨rfl, ?_⟩
      rintro _ ⟨⟩
      simp
  | some old =>
      have hremoved : ∀ object, some (wallet.removeOwner old.role) = some object → object =
          { wallet with
            owners := wallet.owners.filter fun o => some old.role ≠ some o.role } := by
        rintro _ ⟨⟩
        simp [Wallet.removeOwner, eq_comm]
      dsimp only
      split
      · apply bind
        apply (deletePair h).mono
        rintro deleted _ rfl
        cases deleted with
        | true => exact pure ⟨rfl, hremoved⟩
        | false => exact pure ⟨rfl, fun object hobject => by cases hobject⟩
      · exact pure ⟨rfl, hremoved⟩

/-- The post-processing of other types returns at once. -/
theorem postProcessWith_of_type {types : List TransactionType}
    {decode : Data → Trapping (Option Address)}
    {processSuccess : Transaction → Address → Wallet → Call Bool} {pairing : TransactionType}
    (h : m.Consistent app) (htype : m.tx.type ∉ types) :
    Keeps m (ReplaceTwoFADomainService.postProcessWith types decode processSuccess pairing m.tx.id)
      (fun _ _ => True) app := by
  apply bind
  apply read h
  simp only [h.transaction, htype, false_and, if_false]
  exact pure trivial

/-- The post-processing of its own type decodes the new owner and processes it. -/
theorem postProcessWith {types : List TransactionType}
    {decode : Data → Trapping (Option Address)}
    {processSuccess : Transaction → Address → Wallet → Call Bool} {pairing : TransactionType}
    {data : Data} {owner : Address} (h : m.Consistent app) (hdata : m.tx.data = some data)
    (hdecode : decode data = .ok (some owner))
    (hprocess : ∀ wallet, m.Good (m.Seen app) wallet →
      Keeps m (processSuccess m.tx owner wallet) (fun _ app' => m.Consistent app') app) :
    Keeps m (ReplaceTwoFADomainService.postProcessWith types decode processSuccess pairing m.tx.id)
      (fun _ _ => True) app := by
  apply bind
  apply read h
  simp only [h.transaction]
  split
  · apply bind
    apply query h
    intro outside
    obtain ⟨wallet, hfind, hgood⟩ := h.wallet
    simp only [m.account, hfind]
    apply bind
    apply bind
    apply read h
    simp only [h.transaction, hdata]
    apply bind
    apply (contractProxy h).mono
    rintro _ _ rfl
    simp only [hdecode, Process.lift, m.success, if_true]
    apply pure
    apply bind
    exact (hprocess wallet hgood).mono fun completed app' h' => finish h' completed
  · exact pure trivial

theorem connect (h : m.Consistent app) :
    Keeps m (ConnectTwoFADomainService.postProcess services m.tx.id) (fun _ _ => True) app := by
  by_cases htype : m.tx.type ∈ [.connectAuthenticator, .connectStatusKeycard]
  · obtain ⟨owner, threshold, role, hupdate, hrole, hwf, hfits, hdata⟩ :=
      m.performs.of_connect htype
    have hdecode : ConnectTwoFADomainService.decodeNewOwner services
        (addOwner services.kit owner threshold) = .ok (some owner.normalized) := by
      simp [ConnectTwoFADomainService.decodeNewOwner, decodeAddOwnerArguments_addOwner hwf hfits]
    apply postProcessWith h hdata hdecode
    intro wallet hgood
    have hobject : wallet.addOwner ⟨services.kit.checksummed owner.data, role⟩ =
        { wallet with owners := m.update.process wallet } := by
      have hknown := m.describes.proper.roles ⟨services.kit.checksummed owner.data, role⟩
        (by simp [hupdate, added])
      rw [Wallet.addOwner, if_neg hknown, hupdate]
      rfl
    apply bind
    apply lift
    intro role' hrole'
    obtain rfl : role = role' := by simpa [hrole] using hrole'
    simp only [ReplaceTwoFADomainService.add, formatted_normalized hwf, Option.getD_some, hobject]
    apply bind
    apply bind
    apply saveWallet h hgood.process
    intro app₁ h₁ hgood₁
    apply pure
    apply bind
    apply saveWallet h₁ (hgood₁.withCount 2)
    intro app₂ h₂ _
    exact pure h₂
  · exact postProcessWith_of_type h htype

theorem replace (h : m.Consistent app) :
    Keeps m (ReplaceTwoFADomainService.postProcess services m.tx.id) (fun _ _ => True) app := by
  by_cases htype : m.tx.type ∈ [.replaceTwoFAWithAuthenticator, .replaceTwoFAWithStatusKeycard]
  · obtain ⟨prev, old, owner, role, hupdate, hrole, hwf, hdata⟩ := m.performs.of_replace htype
    have hdecode : ReplaceTwoFADomainService.decodeNewOwner services
        (swapOwner services.kit prev old owner) = .ok (some owner.normalized) := by
      simp [ReplaceTwoFADomainService.decodeNewOwner, decodeSwapOwnerArguments_swapOwner prev old hwf]
    apply postProcessWith h hdata hdecode
    intro wallet hgood
    apply bind
    apply (removeOldTwoFAOwner h).mono
    rintro result _ ⟨rfl, hresult⟩
    cases result with
    | none => exact pure h
    | some object =>
        obtain rfl := hresult object rfl
        have hobject : Wallet.addOwner { wallet with
            owners := wallet.owners.filter fun o => wallet.twoFAOwner.map Owner.role ≠ some o.role }
              ⟨services.kit.checksummed owner.data, role⟩ =
            { wallet with owners := m.update.process wallet } := by
          have hknown := m.describes.proper.roles ⟨services.kit.checksummed owner.data, role⟩
            (by simp [hupdate, added])
          rw [Wallet.addOwner, if_neg hknown, hupdate, Wallet.removeOwner]
          simp only [OwnerUpdate.process, added, List.filter_filter, keeps]
          simp [Bool.and_comm]
        apply bind
        apply lift
        intro role' hrole'
        obtain rfl : role = role' := by simpa [hrole] using hrole'
        simp only [ReplaceTwoFADomainService.add, formatted_normalized hwf, Option.getD_some,
          hobject]
        apply bind
        apply bind
        apply saveWallet h hgood.process
        intro app₁ h₁ _
        exact pure (pure h₁)
  · exact postProcessWith_of_type h htype

theorem disconnect (h : m.Consistent app) :
    Keeps m (DisconnectTwoFADomainService.postProcess m.tx.id) (fun _ _ => True) app := by
  apply bind
  apply read h
  simp only [h.transaction]
  split
  · rename_i htype
    obtain ⟨old, hupdate⟩ := m.performs.of_disconnect htype.1
    apply bind
    apply query h
    intro outside
    obtain ⟨wallet, hfind, hgood⟩ := h.wallet
    simp only [m.account, hfind, m.success, if_true]
    apply bind
    apply bind
    apply (removeOldTwoFAOwner h).mono
    rintro result _ ⟨rfl, hresult⟩
    cases result with
    | none => exact pure (finish h false)
    | some object =>
        obtain rfl := hresult object rfl
        have hobject : wallet.owners.filter (fun o =>
            wallet.twoFAOwner.map Owner.role ≠ some o.role) = m.update.process wallet := by
          simp [hupdate, OwnerUpdate.process, added, keeps]
        simp only [hobject]
        apply bind
        apply saveWallet h hgood.process
        intro app₁ h₁ _
        exact pure (finish h₁ true)
  · exact pure trivial

theorem replacePhrase (h : m.Consistent app) :
    Keeps m (ReplaceRecoveryPhraseDomainService.postProcess services m.tx.id) (fun _ _ => True)
      app := by
  apply bind
  apply read h
  simp only [h.transaction]
  split
  · rename_i htype
    obtain ⟨recipient, data, hrecipient, hdata, new₁, new₂, swaps, hupdate, hswaps, hdecode⟩ :=
      m.performs.of_replacePhrase htype.1
    simp only [hrecipient]
    apply bind
    apply query h
    intro outside
    obtain ⟨wallet, hfind, hgood⟩ := h.wallet
    have hobject : ReplaceRecoveryPhraseDomainService.withPhrase (new₁, new₂) wallet =
        { wallet with owners := m.update.process wallet } := by
      simp only [ReplaceRecoveryPhraseDomainService.withPhrase, Wallet.addOwner, hupdate,
        OwnerUpdate.process, added, keeps, Wallet.removeOwner]
      simp [List.filter_append, Bool.and_comm]
    simp only [m.account, hfind, hdata, hswaps]
    apply bind
    apply pure
    apply bind
    apply (contractProxy h).mono
    rintro _ _ rfl
    simp only [hdecode, m.success, if_true]
    apply bind
    rw [hobject]
    apply saveWallet h hgood.process
    intro app₁ h₁ _
    apply bind
    apply read h₁
    split
    · exact bind (write h₁ rfl rfl fun _ h₂ => finish h₂ true)
    · exact finish h₁ true
  · exact pure trivial

/-- Every call keeps the invariant. -/
theorem ownerCall {call : Call Unit} (hcall : m.OwnerCall call) (h : m.Consistent app) :
    Keeps m call (fun _ _ => True) app := by
  have hdiscard : ∀ {call : Call Bool}, Keeps m call (fun _ _ => True) app →
      Keeps m (do let _ ← call) (fun _ _ => True) app :=
    fun hcall => bind (hcall.mono fun _ _ _ => pure trivial)
  cases hcall with
  | refresh => exact updateSafeInfo h
  | connect => exact hdiscard (connect h)
  | replace => exact hdiscard (replace h)
  | disconnect => exact hdiscard (disconnect h)
  | replacePhrase => exact hdiscard (replacePhrase h)

end Keeps

/-! ## Runs in order -/

theorem Matches.consistent {store : Store} (h : m.Matches store) (hsole : m.Sole store) :
    m.Consistent (.ofStore store) := by
  obtain ⟨wallet, hfind, hready, haddress, hclean, honChain⟩ := h.wallet
  refine ⟨h.transaction, hsole.address, wallet, hfind,
    (Table.mem_of_find hfind).2, hready, haddress, hclean, ?_⟩
  have hunseen : ¬ m.Seen (.ofStore store) := fun hseen => by cases hseen
  by_cases hnew : m.update.added = []
  · refine .inl ⟨by simp [Carried, hnew], ?_, fun hseen => absurd hseen hunseen⟩
    have hheld : ∀ old, m.update = .disconnect old → m.update.Held wallet.owners := by
      intro old hupdate
      simpa [storedOwners, hfind] using hsole.disconnected old hupdate
    cases hupdate : m.update with
    | disconnect old => exact hupdate ▸ hheld old hupdate
    | connect new => simp [hupdate, added] at hnew
    | replace new => simp [hupdate, added] at hnew
    | replacePhrase first second => simp [hupdate, added] at hnew
  · refine .inr ⟨hnew, hunseen, fun new hmem => ?_⟩
    rw [honChain]
    exact m.describes.added_before new hmem

theorem Consistent.merged (h : m.Consistent app) (hseen : m.Seen app) : m.Merged app := by
  obtain ⟨wallet, hfind, hgood⟩ := h.wallet
  have happlied := hgood.phase.resolve_right fun hpending => hpending.unseen hseen
  have howners : m.owners app = wallet.owners := by simp [owners, storedOwners, hfind]
  constructor
  · rw [howners]
    exact hgood.clean.distinct
  · rw [howners]
    exact happlied.onChain hseen
  · rw [howners]
    exact happlied.carried

/-- In a run whose calls do not overlap and in which the relay is merged in order, once
the post-processing is over and the relay has reported the change the owners are merged,
and stay so. -/
theorem merged_of_inOrder {store : Store} (hmatches : m.Matches store) (hsole : m.Sole store)
    {c : System.Config App Outside Place}
    (hruns : m.system.Runs m.InOrder System.Config.Idle ⟨.ofStore store, []⟩ c) :
    m.Settles c.state := by
  have hconsistent : m.Consistent c.state := by
    refine @System.Runs.sequential_invariant _ _ _ m.system m.merging m.Consistent
      (fun _ _ h _ => h) ?_ ?_ ?_ ?_ ?_ _ _ hruns (hmatches.consistent hsole) ?_
    · rintro _ _ rfl h
      exact h
    · rintro _ call _ ⟨rfl, hcall⟩ h
      exact ⟨h, Keeps.ownerCall hcall h⟩
    · exact fun _ _ hmove => hmove.elim
    · exact fun _ h => h.frame rfl rfl Iff.rfl
    · exact fun _ _ => Keeps.pure trivial
    · intro call hcall
      cases hcall
  exact fun _ hseen => hconsistent.merged hseen

/-! ## Both orders of one change -/

instance : DecidableEq SafeInfo := fun first second =>
  decidable_of_iff (first.address = second.address ∧ first.masterCopy = second.masterCopy ∧
    first.threshold = second.threshold ∧ first.owners = second.owners ∧
    first.version = second.version) <| by
      cases first
      cases second
      simp

/-- An observation is that of a refresh with an answer. -/
def isMerged (safe : Address) (info : SafeInfo) : Observation → Bool
  | .merged safe' info' => safe' = safe ∧ info' = info
  | _ => false

/-- An observation is that of a post-processing. -/
def isPostProcessed (transactionID : TransactionID) : Observation → Bool
  | .postProcessed id => id = transactionID
  | _ => false

instance (app : App) : Decidable (m.Seen app) :=
  decidable_of_iff (app.log.any (isMerged m.safe m.after) = true) <| by
    rw [List.any_eq_true, Seen]
    constructor
    · rintro ⟨observation, hmem, hobservation⟩
      cases observation with
      | merged safe info =>
          obtain ⟨rfl, rfl⟩ : safe = m.safe ∧ info = m.after := by
            simpa [isMerged] using hobservation
          exact hmem
      | _ => cases hobservation
    · exact fun hmem => ⟨_, hmem, by simp [isMerged]⟩

instance (app : App) : Decidable (m.Processed app) :=
  decidable_of_iff (app.log.any (isPostProcessed m.tx.id) = true) <| by
    rw [List.any_eq_true, Processed]
    constructor
    · rintro ⟨observation, hmem, hobservation⟩
      cases observation with
      | postProcessed id =>
          obtain rfl : id = m.tx.id := by simpa [isPostProcessed] using hobservation
          exact hmem
      | _ => cases hobservation
    · exact fun hmem => ⟨_, hmem, by simp [isPostProcessed]⟩

instance (update : OwnerUpdate) (owners : List Owner) : Decidable (update.Carried owners) :=
  inferInstanceAs (Decidable (∀ new ∈ update.added, ∃ o ∈ owners,
    o.onChain = new.onChain ∧ o.role = new.role))

instance (app : App) (place : Place) : Decidable (m.InOrder app place) :=
  match place with
  | .merging _ info => inferInstanceAs (Decidable ((info = m.before ∧ ¬ m.Seen app ∧
      (m.update.added ≠ [] → ¬ m.update.Carried (m.owners app))) ∨
      (info = m.after ∧ m.update.Carried (m.owners app))))
  | .submitting _ | .handling _ | .moving _ _ | .starting _ | .saving _ | .requestingCreation _
  | .preparing _ | .depositing _ | .crediting _ _
  | .refreshing _ | .asking _ | .elsewhere => isTrue trivial

/-- A refresh with nobody else at work. -/
theorem advance_updateSafeInfo {kit : EthereumKit} {address : Address} {outside : Outside}
    {info : SafeInfo} (hfind : app.store.findWallet address = some wallet)
    (hready : wallet.state.isReadyToUse = true) (hinfo : outside.safeInfo address = some info) :
    (updateSafeInfo kit address).advance outside 3 app =
      (.pure (), (app.saveWallet (withSafeInfo kit wallet info)).observe
        (.merged address info)) := by
  simp [updateSafeInfo, Call.read, Process.query, Process.perform, Process.update, Process.advance,
    hfind, hready, hinfo]

theorem allowed_updateSafeInfo {kit : EthereumKit} {address : Address} {outside : Outside}
    {info : SafeInfo} (hfind : app.store.findWallet address = some wallet)
    (hready : wallet.state.isReadyToUse = true) (hinfo : outside.safeInfo address = some info)
    (hguard : m.InOrder app (.merging address info)) :
    (updateSafeInfo kit address).Allowed m.InOrder outside 3 app := by
  have hread : m.InOrder app .elsewhere := trivial
  have hrequest : m.InOrder app (.refreshing address) := trivial
  simp [updateSafeInfo, Call.read, Process.query, Process.perform, Process.update,
    Process.Allowed, hfind, hready, hinfo, hread, hrequest, hguard]

section Example

open RecoveryTransactionBuilder (recoveryKit recoveryKit_selectors recoveryMetadata)
open SafeWallet.System

/-- The services of the example. -/
def connectServices : Services := .offline recoveryKit recoveryMetadata

/-- The contract before an authenticator is connected. -/
def connectManager : OwnerManager where
  owners := [2, 3, 4]
  threshold := 1
  nodup := by decide
  valid := by simp

/-- The contract with the authenticator. -/
def connectedManager : OwnerManager where
  owners := [7, 2, 3, 4]
  threshold := 2
  nodup := by decide
  valid := by simp

/-- The transaction that connects it. -/
def connectTransaction : Transaction :=
  { Transaction.toItself "tx" .connectAuthenticator "wallet" (.ofChain 5) .success "0x01" with
    data := some (addOwner recoveryKit (.ofChain 7) 2) }

theorem connect_performs : Performs connectServices connectTransaction
    (.connect ⟨recoveryKit.checksummed (Address.ofChain 7).data, .browserExtension⟩)
    connectManager connectedManager := by
  refine .connect (by simp [connectTransaction, Transaction.toItself, Transaction.new]) rfl (Address.ofChain_spec 7).1
    (by norm_num) rfl ?_
  rw [connectServices, Services.offline, execute_addOwner recoveryKit_selectors,
    Address.onChain_ofChain]
  rfl

/-- The transaction and what the relay reports. -/
def connecting : Merge connectServices where
  walletID := "wallet"
  tx := connectTransaction
  update := _
  manager := connectManager
  changed := connectedManager
  before := ⟨5, 6, 1, [2, 3, 4], "1.1.1"⟩
  after := ⟨5, 6, 2, [7, 2, 3, 4], "1.1.1"⟩
  selectors := recoveryKit_selectors
  success := rfl
  account := rfl
  performs := connect_performs
  owners_before := rfl
  owners_after := rfl
  address := rfl

/-- The wallet before. -/
def connectWallet : Wallet where
  id := "wallet"
  state := .readyToUse
  owners := [⟨.ofChain 2, .thisDevice⟩, ⟨.ofChain 3, .paperWallet⟩,
    ⟨.ofChain 4, .paperWalletDerived⟩]
  address := some (recoveryKit.address 5)
  feePaymentTokenAddress := none
  confirmationCount := 1
  masterCopyAddress := some (recoveryKit.address 6)

/-- The repositories before. -/
def connectStore : Store :=
  { Store.ofWallets (Table.empty.save connectWallet) (Table.empty.save connectTransaction) with
    portfolio := some ⟨["wallet"], some "wallet"⟩
    transactionMonitors := ["tx"] }

theorem connectStore_matches : connecting.Matches connectStore where
  transaction := by decide +kernel
  wallet := by
    refine ⟨connectWallet, by decide +kernel, rfl, rfl, ⟨by decide +kernel, by decide +kernel⟩, ?_⟩
    have honChain : connectWallet.owners.map Owner.onChain = connecting.before.owners := by
      simp [connectWallet, Owner.onChain, connecting]
    exact fun x => by rw [honChain]

theorem connectStore_sole : connecting.Sole connectStore where
  address wallet hmem _ := by
    rcases Table.mem_rows_save.mp hmem with rfl | ⟨hmem, -⟩
    · rfl
    · cases hmem
  disconnected old hupdate := by cases hupdate

/-- The relay reports the change. -/
def connectOutside : Outside where
  now := 0
  eth_call _ _ := none
  submitTransaction _ := none
  eth_getTransactionReceipt _ := none
  eth_getBlockByHash _ := none
  safeInfo _ := some connecting.after

/-- The post-processing. -/
def connectCall : Call Unit := do
  let _ ← ConnectTwoFADomainService.postProcess connectServices connecting.tx.id

/-- The wallet after a refresh that has come first. -/
def refreshedWallet : Wallet :=
  { connectWallet with
    owners := connectWallet.owners ++ [⟨recoveryKit.address 7, .unknown⟩]
    address := some (recoveryKit.address connecting.after.address)
    masterCopyAddress := some (recoveryKit.address connecting.after.masterCopy)
    confirmationCount := connecting.after.threshold
    contractVersion := some connecting.after.version }

theorem withSafeInfo_connectWallet :
    withSafeInfo recoveryKit connectWallet connecting.after = refreshedWallet := by
  obtain ⟨_, hfind, -, -, hclean, -⟩ := connectStore_matches.wallet
  have hwallet : connectStore.wallets.find "wallet" = some connectWallet := by decide +kernel
  cases hwallet.symm.trans hfind
  have honChain : connectWallet.owners.map Owner.onChain = [2, 3, 4] := by
    simp [connectWallet, Owner.onChain]
  have hknown : connectWallet.known (remote recoveryKit connecting.after) =
      connectWallet.owners := by
    rw [Wallet.known, List.filter_eq_self]
    intro o ho
    have hmem : o.onChain ∈ connectWallet.owners.map Owner.onChain := List.mem_map_of_mem ho
    rw [decide_eq_true_iff, normalized_mem_remote (hclean.wellFormed o ho)]
    rw [honChain] at hmem
    exact List.mem_cons_of_mem _ hmem
  have hunknown : unknownOwners recoveryKit connectWallet connecting.after =
      [⟨recoveryKit.address 7, .unknown⟩] := by
    rw [unknownOwners_eq hclean, honChain]
    have hfilter : connecting.after.owners.filter (fun x => x ∉ [2, 3, 4]) = [7] := by
      simp [connecting]
    rw [hfilter]
    rfl
  rw [withSafeInfo_eq, hknown, hunknown]
  rfl

/-- The program after that refresh. -/
def refreshedApp : App :=
  ((App.ofStore connectStore).saveWallet refreshedWallet).observe
    (.merged connecting.safe connecting.after)

/-- A refresh that has seen the change adds the new owner, and the post-processing adds
it once more. -/
theorem refreshFirst_not_settles :
    connecting.Matches connectStore ∧ connecting.Sole connectStore ∧
    ∃ c, connecting.system.Runs (fun _ _ => True) Config.Idle ⟨.ofStore connectStore, []⟩ c ∧
      ¬ connecting.Settles c.state := by
  have hadvance : (updateSafeInfo connectServices.kit connecting.safe).advance connectOutside 3
      (.ofStore connectStore) = (.pure (), refreshedApp) := by
    have hfind : (App.ofStore connectStore).store.findWallet connecting.safe =
        some connectWallet := by decide +kernel
    have h := @advance_updateSafeInfo _ _ recoveryKit _ connectOutside _ hfind rfl rfl
    rw [withSafeInfo_connectWallet] at h
    exact h
  have hrefresh := @Runs.call _ _ _ connecting.system (fun _ _ => True) Config.Idle _ _ _ _
    connectOutside 3 (@Config.alive_nil _ _ _ (.ofStore connectStore)) (fun _ h => by cases h)
    ⟨rfl, .refresh⟩ (Process.allowed_of_forall (fun _ _ => trivial) _ _ _ _)
  rw [hadvance] at hrefresh
  have hidle : Config.Idle (⟨refreshedApp, [.pure ()]⟩ : Config App Outside Place) :=
    fun _ h => List.mem_singleton.mp h
  have halive : Config.Alive (⟨refreshedApp, [.pure ()]⟩ : Config App Outside Place) :=
    Config.alive_nil.cons rfl
  have hprocess := @Runs.call _ _ _ connecting.system (fun _ _ => True) Config.Idle _ _ _ _
    connectOutside 12 halive hidle ⟨rfl, .connect⟩
    (Process.allowed_of_forall (fun _ _ => trivial) _ _ _ _)
  refine ⟨connectStore_matches, connectStore_sole, _, hrefresh.trans hprocess, ?_⟩
  intro hsettles
  have hmerged := hsettles (by decide +kernel) (by decide +kernel)
  have hduplicate : ¬ ((connecting.owners (connectCall.advance connectOutside 12
      refreshedApp).2).map Owner.onChain).Nodup := by decide +kernel
  exact hduplicate hmerged.distinct

/-- The wallet after the post-processing. -/
def connectedWallet : Wallet :=
  { connectWallet with
    owners := connectWallet.owners ++
      [⟨recoveryKit.checksummed (Address.ofChain 7).data, .browserExtension⟩]
    confirmationCount := 2 }

/-- The program after the post-processing. -/
def connectedApp : App := (connectCall.advance connectOutside 12 (.ofStore connectStore)).2

/-- The post-processing first, then the refresh. -/
theorem processFirst_settles :
    ∃ c, connecting.system.Runs connecting.InOrder Config.Idle ⟨.ofStore connectStore, []⟩ c ∧
      connecting.Processed c.state ∧ connecting.Seen c.state ∧ connecting.Merged c.state := by
  have hprocess := @Runs.call _ _ _ connecting.system connecting.InOrder Config.Idle _ _ _
    connectCall connectOutside 12 (@Config.alive_nil _ _ _ (.ofStore connectStore))
    (fun _ h => by cases h) ⟨rfl, .connect⟩ (by decide +kernel)
  have hended : (connectCall.advance connectOutside 12 (.ofStore connectStore)).1 = .pure () :=
    Process.eq_pure_of_isPure (by decide +kernel)
  rw [hended] at hprocess
  have hfind : connectedApp.store.findWallet connecting.safe = some connectedWallet := by
    decide +kernel
  have hallowed : (updateSafeInfo connectServices.kit connecting.safe).Allowed connecting.InOrder
      connectOutside 3 connectedApp :=
    allowed_updateSafeInfo hfind rfl rfl (.inr ⟨rfl, by decide +kernel⟩)
  have hrefresh := @Runs.call _ _ _ connecting.system connecting.InOrder Config.Idle _ _ _ _
    connectOutside 3 (Config.alive_nil.cons rfl) (fun _ h => List.mem_singleton.mp h)
    ⟨rfl, .refresh⟩ hallowed
  rw [advance_updateSafeInfo hfind rfl rfl] at hrefresh
  have hruns := hprocess.trans hrefresh
  have hprocessed : connecting.Processed connectedApp := by decide +kernel
  have hseen : connecting.Seen ((connectedApp.saveWallet (withSafeInfo connectServices.kit
      connectedWallet connecting.after)).observe (.merged connecting.safe connecting.after)) :=
    List.mem_cons_self
  have hlast : connecting.Processed ((connectedApp.saveWallet (withSafeInfo connectServices.kit
      connectedWallet connecting.after)).observe (.merged connecting.safe connecting.after)) :=
    List.mem_cons_of_mem _ (List.mem_cons_of_mem _ hprocessed)
  exact ⟨_, hruns, hlast, hseen,
    merged_of_inOrder connectStore_matches connectStore_sole hruns hlast hseen⟩

end Example

end Merge

end SafeWallet
