/-
# Merging two sources of owners

The relay reports which addresses own a contract, the post-processing of a transaction
knows which role its new owner has. The refresh keeps the roles of the owners it knows
and adds the others without one; the post-processing takes an owner out by role and
never looks for one with the new address. So the post-processing has to come first: a
refresh that has seen the change has added the new owner already, and the
post-processing adds it once more.
-/

import SafeWallet.Recovery.OwnerChange
import SafeWallet.Wallet.BackgroundRefresh

namespace SafeWallet

/-! ## Owners on the chain -/

/-- The twenty bytes of an owner. -/
def Owner.onChain (o : Owner) : ChainAddress := o.address.onChain

/-- Owners that are addresses, no two of them the same. -/
structure Clean (owners : List Owner) : Prop where
  wellFormed : ∀ o ∈ owners, o.address.WellFormed
  distinct : (owners.map Owner.onChain).Nodup

namespace Clean

variable {owners : List Owner}

theorem eq_of_onChain (h : Clean owners) {first second : Owner} (hfirst : first ∈ owners)
    (hsecond : second ∈ owners) (heq : first.onChain = second.onChain) : first = second :=
  List.inj_on_of_nodup_map h.distinct hfirst hsecond heq

theorem filter (h : Clean owners) (p : Owner → Bool) : Clean (owners.filter p) where
  wellFormed o ho := h.wellFormed o (List.mem_filter.mp ho).1
  distinct := h.distinct.sublist (List.filter_sublist.map _)

theorem append {added : List Owner} (h : Clean owners) (hadded : Clean added)
    (hnew : ∀ o ∈ owners, o.onChain ∉ added.map Owner.onChain) : Clean (owners ++ added) where
  wellFormed o ho := (List.mem_append.mp ho).elim (h.wellFormed o) (hadded.wellFormed o)
  distinct := by
    rw [List.map_append, List.nodup_append]
    refine ⟨h.distinct, hadded.distinct, ?_⟩
    intro x hx y hy heq
    obtain ⟨o, ho, rfl⟩ := List.mem_map.mp hx
    exact hnew o ho (heq ▸ hy)

end Clean

/-! ## The refresh on the chain -/

namespace TransactionRelayService

variable (kit : EthereumKit)

/-- The program's text of an address denotes it. -/
theorem address_spec (x : ChainAddress) :
    (kit.address x).WellFormed ∧ (kit.address x).onChain = x := by
  obtain ⟨hwf, htoUInt, -⟩ := Address.ofChain_spec x
  obtain ⟨hchecksummed, hvalue⟩ := kit.checksummed_spec hwf.data_spec.1
  refine ⟨hchecksummed, ?_⟩
  rw [Address.onChain, EthereumKit.address, hvalue]
  exact Address.onChain_ofChain x

theorem normalized_address (x : ChainAddress) : (kit.address x).normalized = .ofChain x := by
  obtain ⟨hwf, hvalue⟩ := address_spec kit x
  rw [hwf.normalized_eq_ofChain, hvalue]

theorem ethAddress_ofChain (x : ChainAddress) :
    kit.ethAddress (Address.ofChain x).value = kit.address x := by
  have hlength : (Data.ofEthHex (Address.ofChain x).value.toList).length = 20 :=
    (Address.ofChain_spec x).1.data_spec.1
  simp [EthereumKit.ethAddress, EthereumKit.address, Data.leftPadded, Data.suffix, hlength,
    Address.data]

variable {kit} {wallet : Wallet} {info : SafeInfo}

theorem remote_eq : remote kit info = info.owners.map Address.ofChain := by
  simp [remote, normalized_address]

/-- An owner is in the answer exactly if the contract has it. -/
theorem normalized_mem_remote {o : Owner} (h : o.address.WellFormed) :
    o.address.normalized ∈ remote kit info ↔ o.onChain ∈ info.owners := by
  rw [remote_eq, h.normalized_eq_ofChain, List.mem_map_of_injective Address.ofChain_injective]
  rfl

/-- The owners a refresh adds are those of the contract that were missing. -/
theorem unknownOwners_eq (h : Clean wallet.owners) :
    unknownOwners kit wallet info =
      (info.owners.filter fun x => x ∉ wallet.owners.map Owner.onChain).map fun x =>
        ⟨kit.address x, .unknown⟩ := by
  have hadditional : wallet.additional (remote kit info) =
      (info.owners.filter fun x => x ∉ wallet.owners.map Owner.onChain).map Address.ofChain := by
    rw [Wallet.additional, remote_eq, List.filter_map]
    congr 1
    apply List.filter_congr
    intro x _
    rw [Function.comp_apply, Bool.eq_iff_iff, decide_eq_true_iff, decide_eq_true_iff, List.mem_map]
    constructor
    · rintro hall ⟨o, ho, rfl⟩
      exact hall o ho (h.wellFormed o ho).normalized_eq_ofChain
    · intro hnot o ho heq
      rw [(h.wellFormed o ho).normalized_eq_ofChain] at heq
      exact hnot ⟨o, ho, Address.ofChain_injective heq⟩
  rw [unknownOwners, hadditional, List.map_map]
  apply List.map_congr_left
  intro x _
  simp [ethAddress_ofChain]

/-- After a refresh the owners are exactly those of the contract. -/
theorem mem_onChain_withSafeInfo (h : Clean wallet.owners) (x : ChainAddress) :
    x ∈ (withSafeInfo kit wallet info).owners.map Owner.onChain ↔ x ∈ info.owners := by
  rw [withSafeInfo_eq, List.map_append, List.mem_append, unknownOwners_eq h, Wallet.known]
  have hunknown : x ∈ ((info.owners.filter fun y => y ∉ wallet.owners.map Owner.onChain).map
      fun y => (⟨kit.address y, .unknown⟩ : Owner)).map Owner.onChain ↔
        x ∈ info.owners ∧ x ∉ wallet.owners.map Owner.onChain := by
    simp [Owner.onChain, (address_spec kit _).2]
  rw [hunknown]
  constructor
  · rintro (hknown | hunknown)
    · obtain ⟨o, ho, rfl⟩ := List.mem_map.mp hknown
      obtain ⟨ho, hremote⟩ := List.mem_filter.mp ho
      exact (normalized_mem_remote (h.wellFormed o ho)).mp (by simpa using hremote)
    · exact hunknown.1
  · intro hx
    by_cases hlocal : x ∈ wallet.owners.map Owner.onChain
    · obtain ⟨o, ho, rfl⟩ := List.mem_map.mp hlocal
      refine .inl (List.mem_map_of_mem (List.mem_filter.mpr ⟨ho, ?_⟩))
      simpa using (normalized_mem_remote (h.wellFormed o ho)).mpr hx
    · exact .inr ⟨hx, hlocal⟩

/-- An owner that the contract has stays, with its role. -/
theorem mem_withSafeInfo_of_onChain (h : Clean wallet.owners) {o : Owner} (ho : o ∈ wallet.owners)
    (hx : o.onChain ∈ info.owners) : o ∈ (withSafeInfo kit wallet info).owners := by
  rw [withSafeInfo_eq]
  refine List.mem_append_left _ (List.mem_filter.mpr ⟨ho, ?_⟩)
  simpa using (normalized_mem_remote (h.wellFormed o ho)).mpr hx

theorem withSafeInfo_clean (h : Clean wallet.owners) (hnodup : info.owners.Nodup) :
    Clean (withSafeInfo kit wallet info).owners := by
  rw [withSafeInfo_eq, unknownOwners_eq h]
  apply (h.filter _).append
  · constructor
    · intro o ho
      obtain ⟨x, -, rfl⟩ := List.mem_map.mp ho
      exact (address_spec kit x).1
    · rw [List.map_map]
      have hid : Owner.onChain ∘ (fun x => (⟨kit.address x, .unknown⟩ : Owner)) = id :=
        funext fun x => (address_spec kit x).2
      rw [hid, List.map_id]
      exact hnodup.filter _
  · intro o ho hmem
    obtain ⟨_, hunknown, heq⟩ := List.mem_map.mp hmem
    obtain ⟨x, hx, rfl⟩ := List.mem_map.mp hunknown
    have hnot := (List.mem_filter.mp hx).2
    simp only [decide_eq_true_eq] at hnot
    have hsame : x = o.onChain := (address_spec kit x).2.symm.trans heq
    exact hnot (hsame ▸ List.mem_map_of_mem (List.mem_filter.mp ho).1)

end TransactionRelayService

/-! ## What a transaction changes -/

/-- A change of owners, as the post-processing makes it. -/
inductive OwnerUpdate
  | connect (new : Owner)
  | replace (new : Owner)
  | disconnect (old : ChainAddress)
  | replacePhrase (first second : Address)

namespace OwnerUpdate

/-- The new owners with their roles. -/
def added : OwnerUpdate → List Owner
  | connect new => [new]
  | replace new => [new]
  | disconnect _ => []
  | replacePhrase first second => [⟨first, .paperWallet⟩, ⟨second, .paperWalletDerived⟩]

/-- Whether the post-processing keeps an owner of a wallet. -/
def keeps (wallet : Wallet) (o : Owner) : OwnerUpdate → Bool
  | connect new => o.role ≠ new.role
  | replace new => wallet.twoFAOwner.map Owner.role ≠ some o.role ∧ o.role ≠ new.role
  | disconnect _ => wallet.twoFAOwner.map Owner.role ≠ some o.role
  | replacePhrase _ _ => o.role ≠ .paperWallet ∧ o.role ≠ .paperWalletDerived

/-- The owners of a wallet after the post-processing. -/
def process (update : OwnerUpdate) (wallet : Wallet) : List Owner :=
  wallet.owners.filter (fun o => update.keeps wallet o) ++ update.added

/-- The new owners are there with their roles. -/
def Carried (update : OwnerUpdate) (owners : List Owner) : Prop :=
  ∀ new ∈ update.added, ∃ o ∈ owners, o.onChain = new.onChain ∧ o.role = new.role

/-- Nobody else has the roles that the post-processing looks for. -/
def Held (owners : List Owner) : OwnerUpdate → Prop
  | connect new => ∀ o ∈ owners, o.role = new.role → o.onChain = new.onChain
  | replace new => ∀ o ∈ owners, (o.role = new.role → o.onChain = new.onChain) ∧
      (o.role = .browserExtension → new.role = .browserExtension)
  | disconnect old => ∀ o ∈ owners, o.role = .browserExtension ∨ o.role = .keycard →
      o.onChain = old
  | replacePhrase first second => ∀ o ∈ owners,
      (o.role = .paperWallet → o.onChain = first.onChain) ∧
      (o.role = .paperWalletDerived → o.onChain = second.onChain)

/-- The new owners are addresses, different from each other, with roles that the
transactions of the program give. -/
structure Proper (update : OwnerUpdate) : Prop where
  clean : Clean update.added
  roles : ∀ new ∈ update.added, new.role ≠ .unknown
  twoFA : ∀ new, update = connect new ∨ update = replace new →
    new.role = .browserExtension ∨ new.role = .keycard

variable {update : OwnerUpdate} {wallet : Wallet} {o : Owner}

theorem mem_process : o ∈ update.process wallet ↔
    (o ∈ wallet.owners ∧ update.keeps wallet o = true) ∨ o ∈ update.added := by
  rw [process, List.mem_append, List.mem_filter]

theorem process_carried : update.Carried (update.process wallet) :=
  fun new hnew => ⟨new, mem_process.mpr (.inr hnew), rfl, rfl⟩

/-- An owner that is kept does not have the role of a new one. -/
theorem role_ne_of_keeps (h : update.keeps wallet o = true) {new : Owner}
    (hnew : new ∈ update.added) : o.role ≠ new.role := by
  cases update with
  | connect => simp_all [keeps, added]
  | replace => simp_all [keeps, added]
  | disconnect => cases hnew
  | replacePhrase =>
      simp only [keeps, Bool.decide_and, Bool.and_eq_true, decide_eq_true_eq] at h
      simp only [added, List.mem_cons, List.not_mem_nil, or_false] at hnew
      rcases hnew with rfl | rfl
      · exact h.1
      · exact h.2

/-- The role that is looked for first. -/
theorem twoFAOwner_cases (wallet : Wallet) :
    (∃ o ∈ wallet.owners, o.role = .browserExtension ∧
      wallet.twoFAOwner.map Owner.role = some .browserExtension) ∨
    (∀ o ∈ wallet.owners, o.role ≠ .browserExtension) ∧
      ((∃ o ∈ wallet.owners, o.role = .keycard ∧
        wallet.twoFAOwner.map Owner.role = some .keycard) ∨
      (∀ o ∈ wallet.owners, o.role ≠ .keycard) ∧ wallet.twoFAOwner = none) := by
  cases hextension : wallet.owner .browserExtension with
  | some o =>
      obtain ⟨hmem, hrole⟩ := Wallet.owner_mem hextension
      exact .inl ⟨o, hmem, hrole, by simp [Wallet.twoFAOwner, hextension, hrole]⟩
  | none =>
      have hnone : ∀ o ∈ wallet.owners, o.role ≠ .browserExtension := by
        simpa [Wallet.owner] using hextension
      refine .inr ⟨hnone, ?_⟩
      cases hkeycard : wallet.owner .keycard with
      | some o =>
          obtain ⟨hmem, hrole⟩ := Wallet.owner_mem hkeycard
          exact .inl ⟨o, hmem, hrole, by simp [Wallet.twoFAOwner, hextension, hkeycard, hrole]⟩
      | none =>
          refine .inr ⟨by simpa [Wallet.owner] using hkeycard, ?_⟩
          simp [Wallet.twoFAOwner, hextension, hkeycard]

/-- After the post-processing the roles are held by the new owners alone. -/
theorem process_held (h : ∀ old, update = disconnect old → update.Held wallet.owners) :
    update.Held (update.process wallet) := by
  cases update with
  | connect new =>
      intro o ho hrole
      rcases mem_process.mp ho with ⟨-, hkeeps⟩ | hnew
      · exact absurd hrole (role_ne_of_keeps hkeeps List.mem_cons_self)
      · rw [List.mem_singleton.mp hnew]
  | replace new =>
      intro o ho
      rcases mem_process.mp ho with ⟨hmem, hkeeps⟩ | hnew
      · refine ⟨fun hrole => absurd hrole (role_ne_of_keeps hkeeps List.mem_cons_self), ?_⟩
        intro hrole
        rcases twoFAOwner_cases wallet with ⟨_, -, -, htwoFA⟩ | ⟨hnone, -⟩
        · simp [keeps, htwoFA, hrole] at hkeeps
        · exact absurd hrole (hnone o hmem)
      · rw [List.mem_singleton.mp hnew]
        exact ⟨fun _ => rfl, fun hrole => hrole⟩
  | disconnect old =>
      intro o ho
      rcases mem_process.mp ho with ⟨hmem, -⟩ | hnew
      · exact h old rfl o hmem
      · cases hnew
  | replacePhrase first second =>
      intro o ho
      rcases mem_process.mp ho with ⟨-, hkeeps⟩ | hnew
      · simp only [keeps, Bool.decide_and, Bool.and_eq_true, decide_eq_true_eq] at hkeeps
        exact ⟨fun hrole => absurd hrole hkeeps.1, fun hrole => absurd hrole hkeeps.2⟩
      · simp only [added, List.mem_cons, List.not_mem_nil, or_false] at hnew
        rcases hnew with rfl | rfl
        · exact ⟨fun _ => rfl, fun hrole => by cases hrole⟩
        · exact ⟨fun hrole => (by cases hrole), fun _ => rfl⟩

theorem process_clean (hclean : Clean wallet.owners) (hadded : Clean update.added)
    (hnew : ∀ o ∈ wallet.owners, update.keeps wallet o = true →
      o.onChain ∉ update.added.map Owner.onChain) : Clean (update.process wallet) := by
  apply (hclean.filter _).append hadded
  intro o ho
  obtain ⟨hmem, hkeeps⟩ := List.mem_filter.mp ho
  exact hnew o hmem hkeeps

/-- An owner that is kept is none of the new ones, if these are there already. -/
theorem not_mem_added_of_keeps (hclean : Clean wallet.owners) (hcarried : update.Carried wallet.owners)
    (hmem : o ∈ wallet.owners) (hkeeps : update.keeps wallet o = true) :
    o.onChain ∉ update.added.map Owner.onChain := by
  intro hadded
  obtain ⟨new, hnew, heq⟩ := List.mem_map.mp hadded
  obtain ⟨holder, hholder, honChain, hrole⟩ := hcarried new hnew
  have hsame := hclean.eq_of_onChain hholder hmem (honChain.trans heq)
  exact role_ne_of_keeps hkeeps hnew (hsame ▸ hrole)

/-- An owner that is not kept is one of the new ones, if these have their roles. -/
theorem mem_added_of_not_keeps (hproper : update.Proper) (hcarried : update.Carried wallet.owners)
    (hheld : update.Held wallet.owners)
    (hold : ∀ old, update = disconnect old → old ∉ wallet.owners.map Owner.onChain)
    (hmem : o ∈ wallet.owners) (hkeeps : update.keeps wallet o = false) :
    o.onChain ∈ update.added.map Owner.onChain := by
  cases update with
  | connect new =>
      have hrole : o.role = new.role := by simpa [keeps] using hkeeps
      simp [added, hheld o hmem hrole]
  | replace new =>
      suffices hrole : o.role = new.role by simp [added, (hheld o hmem).1 hrole]
      obtain ⟨holder, hholder, -, hholderRole⟩ := hcarried new List.mem_cons_self
      by_contra hne
      have htwoFA : wallet.twoFAOwner.map Owner.role = some o.role := by
        simpa [keeps, hne] using hkeeps
      rcases twoFAOwner_cases wallet with ⟨extension, hextension, hrole, hfirst⟩ | ⟨hnone, hrest⟩
      · have hnew := (hheld extension hextension).2 hrole
        rw [hfirst, Option.some.injEq] at htwoFA
        exact hne (htwoFA.symm.trans hnew.symm)
      · have hkeycard : new.role = .keycard := by
          refine (hproper.twoFA new (.inr rfl)).resolve_left fun hextension => ?_
          exact hnone holder hholder (hholderRole.trans hextension)
        rcases hrest with ⟨_, -, -, hsecond⟩ | ⟨hnokeycard, -⟩
        · rw [hsecond, Option.some.injEq] at htwoFA
          exact hne (htwoFA.symm.trans hkeycard.symm)
        · exact hnokeycard holder hholder (hholderRole.trans hkeycard)
  | disconnect old =>
      have htwoFA : wallet.twoFAOwner.map Owner.role = some o.role := by
        simpa [keeps] using hkeeps
      have hrole : o.role = .browserExtension ∨ o.role = .keycard := by
        rcases twoFAOwner_cases wallet with ⟨_, -, -, hfirst⟩ | ⟨-, ⟨_, -, -, hsecond⟩ | ⟨-, hnone⟩⟩
        · rw [hfirst, Option.some.injEq] at htwoFA
          exact .inl htwoFA.symm
        · rw [hsecond, Option.some.injEq] at htwoFA
          exact .inr htwoFA.symm
        · rw [hnone] at htwoFA
          cases htwoFA
      exact absurd (hheld o hmem hrole ▸ List.mem_map_of_mem hmem) (hold old rfl)
  | replacePhrase first second =>
      have hrole : o.role = .paperWallet ∨ o.role = .paperWalletDerived := by
        simp only [keeps, Bool.decide_and, Bool.and_eq_false_iff, decide_eq_false_iff_not,
          not_not] at hkeeps
        exact hkeeps
      rcases hrole with hrole | hrole
      · rw [(hheld o hmem).1 hrole]
        exact List.mem_cons_self
      · rw [(hheld o hmem).2 hrole]
        exact List.mem_cons_of_mem _ List.mem_cons_self

/-- Post-processing once more changes no address. -/
theorem mem_onChain_process (hproper : update.Proper) (hcarried : update.Carried wallet.owners)
    (hheld : update.Held wallet.owners)
    (hold : ∀ old, update = disconnect old → old ∉ wallet.owners.map Owner.onChain)
    (x : ChainAddress) :
    x ∈ (update.process wallet).map Owner.onChain ↔ x ∈ wallet.owners.map Owner.onChain := by
  constructor
  · intro hx
    obtain ⟨o, ho, rfl⟩ := List.mem_map.mp hx
    rcases mem_process.mp ho with ⟨hmem, -⟩ | hnew
    · exact List.mem_map_of_mem hmem
    · obtain ⟨holder, hholder, heq, -⟩ := hcarried o hnew
      exact heq ▸ List.mem_map_of_mem hholder
  · intro hx
    obtain ⟨o, ho, rfl⟩ := List.mem_map.mp hx
    cases hkeeps : update.keeps wallet o with
    | true => exact List.mem_map_of_mem (mem_process.mpr (.inl ⟨ho, hkeeps⟩))
    | false =>
        obtain ⟨new, hnew, heq⟩ := List.mem_map.mp
          (mem_added_of_not_keeps hproper hcarried hheld hold ho hkeeps)
        exact heq ▸ List.mem_map_of_mem (mem_process.mpr (.inr hnew))

/-! ## Where a merge stands -/

/-- The new owners are there with roles of their own, and once the relay has reported the
change the owners are those of the contract. -/
structure Applied (update : OwnerUpdate) (after : List ChainAddress) (seen : Prop)
    (owners : List Owner) : Prop where
  carried : update.Carried owners
  held : update.Held owners
  onChain : seen → ∀ x, x ∈ owners.map Owner.onChain ↔ x ∈ after

/-- There are new owners, but none of them is there. -/
structure Pending (update : OwnerUpdate) (seen : Prop) (owners : List Owner) : Prop where
  new : update.added ≠ []
  unseen : ¬ seen
  absent : ∀ new ∈ update.added, new.onChain ∉ owners.map Owner.onChain

variable {after : List ChainAddress} {seen : Prop}

theorem Pending.not_carried (h : update.Pending seen wallet.owners) :
    ¬ update.Carried wallet.owners := by
  intro hcarried
  obtain ⟨new, hnew⟩ := List.exists_mem_of_ne_nil _ h.new
  obtain ⟨o, ho, heq, -⟩ := hcarried new hnew
  exact h.absent new hnew (heq ▸ List.mem_map_of_mem ho)

/-- The post-processing applies a pending change. -/
theorem Pending.process (h : update.Pending seen wallet.owners) (hproper : update.Proper)
    (hclean : Clean wallet.owners) :
    Clean (update.process wallet) ∧ update.Applied after seen (update.process wallet) := by
  constructor
  · apply process_clean hclean hproper.clean
    intro o ho _ hmem
    obtain ⟨new, hnew, heq⟩ := List.mem_map.mp hmem
    exact h.absent new hnew (heq ▸ List.mem_map_of_mem ho)
  · refine ⟨process_carried, process_held fun old heq => ?_, fun hseen => absurd hseen h.unseen⟩
    exact absurd (heq ▸ rfl) h.new

/-- The post-processing leaves an applied change applied. -/
theorem Applied.process (h : update.Applied after seen wallet.owners) (hproper : update.Proper)
    (hclean : Clean wallet.owners) (hold : ∀ old, update = disconnect old → old ∉ after) :
    Clean (update.process wallet) ∧ update.Applied after seen (update.process wallet) := by
  constructor
  · apply process_clean hclean hproper.clean
    exact fun o ho hkeeps => not_mem_added_of_keeps hclean h.carried ho hkeeps
  · refine ⟨process_carried, process_held fun _ _ => h.held, fun hseen x => ?_⟩
    rw [mem_onChain_process hproper h.carried h.held, h.onChain hseen]
    intro old hupdate hmem
    exact hold old hupdate ((h.onChain hseen old).mp hmem)

section Refresh

open TransactionRelayService

variable {kit : EthereumKit} {info : SafeInfo}

/-- A refresh gives no role to anybody. -/
theorem Held.withSafeInfo (h : update.Held wallet.owners) (hproper : update.Proper) :
    update.Held (withSafeInfo kit wallet info).owners := by
  have hmem : ∀ o ∈ (TransactionRelayService.withSafeInfo kit wallet info).owners,
      o.role ≠ .unknown → o ∈ wallet.owners := fun o ho hrole => ((mem_withSafeInfo hrole).mp ho).1
  cases update with
  | connect new =>
      intro o ho hrole
      have hknown := hproper.roles new List.mem_cons_self
      exact h o (hmem o ho (hrole ▸ hknown)) hrole
  | replace new =>
      intro o ho
      have hknown := hproper.roles new List.mem_cons_self
      refine ⟨fun hrole => (h o (hmem o ho (hrole ▸ hknown))).1 hrole, fun hrole => ?_⟩
      exact (h o (hmem o ho (by simp [hrole]))).2 hrole
  | disconnect old =>
      intro o ho hrole
      refine h o (hmem o ho ?_) hrole
      rcases hrole with hrole | hrole
      · simp [hrole]
      · simp [hrole]
  | replacePhrase first second =>
      intro o ho
      refine ⟨fun hrole => ?_, fun hrole => ?_⟩
      · exact (h o (hmem o ho (by simp [hrole]))).1 hrole
      · exact (h o (hmem o ho (by simp [hrole]))).2 hrole

/-- A refresh that reports the change completes an applied one. -/
theorem Applied.refresh (h : update.Applied info.owners seen wallet.owners)
    (hproper : update.Proper) (hclean : Clean wallet.owners)
    (hadded : ∀ new ∈ update.added, new.onChain ∈ info.owners) (seen' : Prop) :
    update.Applied info.owners seen' (withSafeInfo kit wallet info).owners := by
  refine ⟨fun new hnew => ?_, h.held.withSafeInfo hproper,
    fun _ => mem_onChain_withSafeInfo hclean⟩
  obtain ⟨o, ho, heq, hrole⟩ := h.carried new hnew
  exact ⟨o, mem_withSafeInfo_of_onChain hclean ho (heq ▸ hadded new hnew), heq, hrole⟩

/-- A refresh that does not know the new owners leaves the change pending. -/
theorem Pending.refresh (h : update.Pending seen wallet.owners) (hclean : Clean wallet.owners)
    (hadded : ∀ new ∈ update.added, new.onChain ∉ info.owners) :
    update.Pending seen (withSafeInfo kit wallet info).owners := by
  refine ⟨h.new, h.unseen, fun new hnew => ?_⟩
  rw [mem_onChain_withSafeInfo hclean]
  exact hadded new hnew

/-- Where nothing is added, a refresh may also report the time before. -/
theorem Applied.refresh_unseen (h : update.Applied after seen wallet.owners)
    (hproper : update.Proper) (hadded : update.added = []) (hunseen : ¬ seen) :
    update.Applied after seen (withSafeInfo kit wallet info).owners :=
  ⟨by simp [Carried, hadded], h.held.withSafeInfo hproper, fun hseen => absurd hseen hunseen⟩

end Refresh

end OwnerUpdate

end SafeWallet
