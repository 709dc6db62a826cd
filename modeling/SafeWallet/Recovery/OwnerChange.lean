/-
# What the recovery transaction does to the owners

The planned calls are executed against the contract. First the plan itself is
described without neighbours, on the contract's state alone: exchange the first
replaceable owner for this device, then exchange, add or remove for the
authenticator. The calls in the transaction do exactly that. Whether the result is
the promised set of owners is then a question about lists: it is, unless this
device already is an owner behind another replaceable one, or the local addresses
are not what the plan takes for granted.
-/

import SafeWallet.Ethereum.MultiSendCodec
import SafeWallet.Recovery.TransactionBuilder

namespace SafeWallet

open SafeOwnerManagerContractProxy

/-! ## The plan on the contract -/

namespace OwnerManager

open Linked

/-- Replace an owner, unless the new one is the old one. -/
def exchange (manager : OwnerManager) (old new : ChainAddress) : Option OwnerManager :=
  if new = old then some manager
  else if h : manager.CanAdd new ∧ old ∈ manager.owners then
    some {
      owners := manager.owners.replace old new
      threshold := manager.threshold
      nodup := nodup_replace manager.nodup h.1.2.2
      valid := by
        intro owner hmem
        rcases (mem_replace manager.nodup h.2).mp hmem with rfl | ⟨hmem, -⟩
        · exact ⟨h.1.1, h.1.2.1⟩
        · exact manager.valid owner hmem }
  else none

theorem nodup_erase (manager : OwnerManager) (owner : ChainAddress) :
    (manager.owners.erase owner).Nodup := manager.nodup.erase owner

theorem valid_erase (manager : OwnerManager) (owner : ChainAddress) :
    ∀ other ∈ manager.owners.erase owner, other ≠ 0 ∧ other ≠ sentinel :=
  fun other hmem => manager.valid other (List.mem_of_mem_erase hmem)

/-- Remove an owner. -/
def discard (manager : OwnerManager) (owner : ChainAddress) (threshold : BitVec 256) :
    Option OwnerManager :=
  if owner ∈ manager.owners ∧
      (1 ≤ threshold.toNat ∧ threshold.toNat + 1 ≤ manager.owners.length) then
    some {
      owners := manager.owners.erase owner
      threshold := threshold
      nodup := nodup_erase manager owner
      valid := valid_erase manager owner }
  else none

variable {manager manager' : OwnerManager} {prev old new owner : ChainAddress}
  {threshold : BitVec 256}

theorem swapOwner_eq_exchange (h : PointsTo sentinel manager.owners prev old) (hne : new ≠ old) :
    manager.swapOwner prev old new = manager.exchange old new := by
  simp only [swapOwner, exchange, h, and_true, h.mem, hne, if_false]

theorem removeOwner_eq_discard (h : PointsTo sentinel manager.owners prev owner) :
    manager.removeOwner prev owner threshold = manager.discard owner threshold := by
  simp only [removeOwner, discard, h, true_and, h.mem]

/-- What an exchange leaves. -/
theorem exchange_spec (h : manager.exchange old new = some manager') (hold : old ∈ manager.owners) :
    (new = old ∨ manager.CanAdd new) ∧ manager'.threshold = manager.threshold ∧
      manager'.owners.length = manager.owners.length ∧
      ∀ x, x ∈ manager'.owners ↔ x = new ∨ (x ∈ manager.owners ∧ x ≠ old) := by
  unfold exchange at h
  split at h
  · rename_i heq
    cases h
    refine ⟨.inl heq, rfl, rfl, fun x => ?_⟩
    subst heq
    constructor
    · intro hx
      by_cases hxn : x = new
      · exact .inl hxn
      · exact .inr ⟨hx, hxn⟩
    · rintro (rfl | ⟨hx, -⟩)
      · exact hold
      · exact hx
  · split at h
    · rename_i hcan
      cases h
      exact ⟨.inr hcan.1, rfl, by simp, fun x => mem_replace manager.nodup hold⟩
    · cases h

theorem owners_of_exchange (h : manager.exchange old new = some manager') :
    manager'.owners = if new = old then manager.owners else manager.owners.replace old new := by
  unfold exchange at h
  split at h
  · rename_i heq
    cases h
    rw [if_pos heq]
  · rename_i hne
    split at h
    · cases h
      rw [if_neg hne]
    · cases h

theorem exists_exchange (hold : old ∈ manager.owners) (h : new = old ∨ manager.CanAdd new) :
    ∃ manager', manager.exchange old new = some manager' := by
  unfold exchange
  by_cases heq : new = old
  · exact ⟨manager, if_pos heq⟩
  · have hcan := h.resolve_left heq
    rw [if_neg heq, dif_pos ⟨hcan, hold⟩]
    exact ⟨_, rfl⟩

theorem add_spec (h : manager.addOwnerWithThreshold owner threshold = some manager') :
    manager.CanAdd owner ∧ manager'.threshold = threshold ∧
      manager'.owners = owner :: manager.owners := by
  unfold addOwnerWithThreshold at h
  split at h
  · rename_i hcan
    cases h
    exact ⟨hcan.1, rfl, rfl⟩
  · cases h

theorem discard_spec (h : manager.discard owner threshold = some manager') :
    owner ∈ manager.owners ∧ manager'.threshold = threshold ∧
      manager'.owners = manager.owners.erase owner := by
  unfold discard at h
  split at h
  · rename_i hmem
    cases h
    exact ⟨hmem.1, rfl, rfl⟩
  · cases h

/-- The owners outside the recovery phrase, in the order of the list. -/
def replaceable (manager : OwnerManager) (paper derived : ChainAddress) : List ChainAddress :=
  (manager.owners.erase paper).erase derived

/-- The plan: this device takes the place of the first replaceable owner; the
authenticator is added to a contract of three owners and takes the place of the
second replaceable owner of one of four, which is removed if there is no
authenticator. -/
def recovered (manager : OwnerManager) (device paper derived : ChainAddress)
    (authenticator : Option ChainAddress) : Option OwnerManager :=
  match manager.replaceable paper derived with
  | [] => none
  | first :: others => do
    let exchanged ← manager.exchange first device
    if manager.owners.length = 3 then
      match authenticator with
      | none => return exchanged
      | some a =>
        if a = sentinel ∨ a ∈ exchanged.owners then return exchanged
        else exchanged.addOwnerWithThreshold a 2#256
    else
      match others, authenticator with
      | [], _ => none
      | second :: _, none => exchanged.discard second 1#256
      | second :: _, some a => exchanged.exchange second a

/-- The contract has exactly these owners, and the number of confirmations that
goes with them. -/
def HasOwners (manager : OwnerManager) (device paper derived : ChainAddress)
    (authenticator : Option ChainAddress) : Prop :=
  (∀ x, x ∈ manager.owners ↔ x ∈ [device, paper, derived] ++ authenticator.toList) ∧
    manager.threshold.toNat = if authenticator.isSome then 2 else 1

/-- What the plan takes for granted: different and possible local addresses, the
recovery phrase on the contract, and this device not behind another replaceable
owner. -/
structure Recoverable (manager : OwnerManager) (device paper derived : ChainAddress)
    (authenticator : Option ChainAddress) : Prop where
  distinct : ([device, paper, derived] ++ authenticator.toList).Nodup
  valid : ∀ a ∈ device :: authenticator.toList, a ≠ 0 ∧ a ≠ sentinel
  paper_mem : paper ∈ manager.owners
  derived_mem : derived ∈ manager.owners
  device_first : device ∈ manager.owners → (manager.replaceable paper derived).head? = some device

section Recovered

variable {device paper derived : ChainAddress} {authenticator : Option ChainAddress}

theorem mem_replaceable {x : ChainAddress} :
    x ∈ manager.replaceable paper derived ↔ x ∈ manager.owners ∧ x ≠ paper ∧ x ≠ derived := by
  rw [replaceable, (manager.nodup.erase paper).mem_erase_iff, manager.nodup.mem_erase_iff]
  tauto

theorem nodup_replaceable : (manager.replaceable paper derived).Nodup :=
  (manager.nodup.erase paper).erase derived

theorem length_replaceable_ge (manager : OwnerManager) (paper derived : ChainAddress) :
    manager.owners.length ≤ (manager.replaceable paper derived).length + 2 := by
  simp only [replaceable, List.length_erase]
  split <;> split <;> omega

theorem length_replaceable (hpaper : paper ∈ manager.owners) (hderived : derived ∈ manager.owners)
    (hne : paper ≠ derived) :
    (manager.replaceable paper derived).length + 2 = manager.owners.length := by
  have hmem : derived ∈ manager.owners.erase paper :=
    (manager.nodup.mem_erase_iff).mpr ⟨hne.symm, hderived⟩
  have hpos := List.length_pos_of_mem hmem
  rw [replaceable, List.length_erase_of_mem hmem]
  rw [List.length_erase_of_mem hpaper] at hpos ⊢
  omega

/-- Addresses that fill a list of different owners exactly are different
themselves. -/
theorem nodup_of_owners {target : List ChainAddress} (h : ∀ x, x ∈ manager.owners ↔ x ∈ target)
    (hlength : target.length ≤ manager.owners.length) : target.Nodup := by
  have hsub : manager.owners.Subperm target :=
    List.subperm_of_subset manager.nodup fun x hx => (h x).mp hx
  exact (hsub.perm_of_length_le hlength).nodup_iff.mp manager.nodup

/-- The ways in which the plan succeeds. -/
theorem recovered_cases (h : manager.recovered device paper derived authenticator = some manager') :
    ∃ first others exchanged, manager.replaceable paper derived = first :: others ∧
      manager.exchange first device = some exchanged ∧
      ((manager.owners.length = 3 ∧ authenticator = none ∧ manager' = exchanged) ∨
        (manager.owners.length = 3 ∧ ∃ a, authenticator = some a ∧ manager' = exchanged) ∨
        (manager.owners.length = 3 ∧ ∃ a, authenticator = some a ∧
          exchanged.addOwnerWithThreshold a 2#256 = some manager') ∨
        (manager.owners.length ≠ 3 ∧ authenticator = none ∧ ∃ second,
          exchanged.discard second 1#256 = some manager') ∨
        (manager.owners.length ≠ 3 ∧ ∃ second rest a, others = second :: rest ∧
          authenticator = some a ∧ exchanged.exchange second a = some manager')) := by
  unfold recovered at h
  split at h
  · cases h
  rename_i first others hreplaceable
  obtain ⟨exchanged, hexchange, h⟩ := Option.bind_eq_some_iff.mp h
  refine ⟨first, others, exchanged, hreplaceable, hexchange, ?_⟩
  by_cases hthree : manager.owners.length = 3
  · rw [if_pos hthree] at h
    cases authenticator with
    | none =>
        cases h
        exact .inl ⟨hthree, rfl, rfl⟩
    | some a =>
        simp only at h
        split at h
        · cases h
          exact .inr (.inl ⟨hthree, a, rfl, rfl⟩)
        · exact .inr (.inr (.inl ⟨hthree, a, rfl, h⟩))
  · rw [if_neg hthree] at h
    cases others with
    | nil => cases h
    | cons second rest =>
        cases authenticator with
        | none => exact .inr (.inr (.inr (.inl ⟨hthree, rfl, second, h⟩)))
        | some a => exact .inr (.inr (.inr (.inr ⟨hthree, second, rest, a, rfl, rfl, h⟩)))

/-- The second replaceable owner is still there after the first was exchanged. -/
theorem second_mem_exchanged {first second : ChainAddress} {rest : List ChainAddress}
    {exchanged : OwnerManager} (hreplaceable : manager.replaceable paper derived =
      first :: second :: rest) (h : manager.exchange first device = some exchanged) :
    second ∈ exchanged.owners := by
  have hmem : ∀ x ∈ first :: second :: rest, x ∈ manager.owners := by
    intro x hx
    rw [← hreplaceable] at hx
    exact (mem_replaceable.mp hx).1
  have hne : second ≠ first := by
    have hnodup := hreplaceable ▸ (nodup_replaceable : (manager.replaceable paper derived).Nodup)
    simp at hnodup
    exact fun heq => hnodup.1.1 heq.symm
  exact ((exchange_spec h (hmem first (by simp))).2.2.2 second).mpr
    (.inr ⟨hmem second (by simp), hne⟩)

/-- A plan that gives the right owners leaves as many of them as there are
addresses to become owners, and no owner that is neither new nor was one before. -/
theorem recovered_spec (hthreshold : manager.owners.length = 3 → manager.threshold.toNat = 1)
    (hlength : manager.owners.length = 3 ∨ manager.owners.length = 4)
    (h : manager.recovered device paper derived authenticator = some manager')
    (hcount : manager'.threshold.toNat = if authenticator.isSome then 2 else 1) :
    ([device, paper, derived] ++ authenticator.toList).length ≤ manager'.owners.length ∧
      ∀ x ∈ manager'.owners, x = device ∨ some x = authenticator ∨ x ∈ manager.owners := by
  obtain ⟨first, others, exchanged, hreplaceable, hexchange, hcases⟩ := recovered_cases h
  have hfirst : first ∈ manager.owners := by
    have : first ∈ manager.replaceable paper derived := by simp [hreplaceable]
    exact (mem_replaceable.mp this).1
  obtain ⟨-, hsame, hexchanged, hmem⟩ := exchange_spec hexchange hfirst
  rcases hcases with ⟨hthree, rfl, rfl⟩ | ⟨hthree, a, rfl, rfl⟩ | ⟨hthree, a, rfl, hadd⟩ |
    ⟨hfour, rfl, second, hdiscard⟩ | ⟨hfour, second, rest, a, rfl, rfl, hsecond⟩
  · refine ⟨by simp; omega, fun x hx => ?_⟩
    have := (hmem x).mp hx
    tauto
  · -- Nothing was added, so the threshold stayed.
    rw [hsame, hthreshold hthree] at hcount
    simp at hcount
  · obtain ⟨-, -, howners⟩ := add_spec hadd
    refine ⟨by simp [howners]; omega, fun x hx => ?_⟩
    rw [howners, List.mem_cons] at hx
    have := hmem x
    grind
  · obtain ⟨hsecond, -, howners⟩ := discard_spec hdiscard
    have hpos := List.length_pos_of_mem hsecond
    refine ⟨by simp [howners, List.length_erase_of_mem hsecond]; omega, fun x hx => ?_⟩
    have := (hmem x).mp (List.mem_of_mem_erase (howners ▸ hx))
    tauto
  · obtain ⟨-, -, hsame', hmem'⟩ :=
      exchange_spec hsecond (second_mem_exchanged hreplaceable hexchange)
    refine ⟨by simp; omega, fun x hx => ?_⟩
    have := (hmem' x).mp hx
    have := hmem x
    grind

/-- If the plan succeeds and gives the right owners, it could take its conditions
for granted. -/
theorem Recoverable.of_recovered (hthreshold : manager.owners.length = 3 → manager.threshold.toNat = 1)
    (hlength : manager.owners.length = 3 ∨ manager.owners.length = 4)
    (h : manager.recovered device paper derived authenticator = some manager')
    (howners : manager'.HasOwners device paper derived authenticator) :
    manager.Recoverable device paper derived authenticator := by
  obtain ⟨hset, hcount⟩ := howners
  have hresult := recovered_spec hthreshold hlength h hcount
  obtain ⟨first, others, exchanged, hreplaceable, hexchange, -⟩ := recovered_cases h
  have hfirst : first ∈ manager.owners := by
    have : first ∈ manager.replaceable paper derived := by simp [hreplaceable]
    exact (mem_replaceable.mp this).1
  have hdevice := (exchange_spec hexchange hfirst).1
  have hdistinct := nodup_of_owners hset hresult.1
  have hpaper : paper ∈ manager'.owners := by simp [hset]
  have hderived : derived ∈ manager'.owners := by simp [hset]
  refine ⟨hdistinct, ?_, ?_, ?_, ?_⟩
  · intro a ha
    apply manager'.valid
    rw [hset]
    rcases List.mem_cons.mp ha with rfl | ha
    · simp
    · exact List.mem_append_right _ ha
  · rcases hresult.2 paper hpaper with h | h | h
    · simp [h] at hdistinct
    · simp [← h] at hdistinct
    · exact h
  · rcases hresult.2 derived hderived with h | h | h
    · simp [h] at hdistinct
    · simp [← h] at hdistinct
    · exact h
  · intro hmember
    rw [hreplaceable, List.head?_cons]
    rcases hdevice with rfl | hcan
    · rfl
    · exact absurd hmember hcan.2.2

theorem exists_add (h : manager.CanAdd owner)
    (hthreshold : 1 ≤ threshold.toNat ∧ threshold.toNat ≤ manager.owners.length + 1) :
    ∃ manager', manager.addOwnerWithThreshold owner threshold = some manager' := by
  rw [addOwnerWithThreshold, dif_pos ⟨h, hthreshold⟩]
  exact ⟨_, rfl⟩

theorem exists_discard (h : owner ∈ manager.owners)
    (hthreshold : 1 ≤ threshold.toNat ∧ threshold.toNat + 1 ≤ manager.owners.length) :
    ∃ manager', manager.discard owner threshold = some manager' := by
  rw [discard, if_pos ⟨h, hthreshold⟩]
  exact ⟨_, rfl⟩

/-- This device can take the first place. -/
theorem Recoverable.exists_exchanged (h : manager.Recoverable device paper derived authenticator)
    {first : ChainAddress} {others : List ChainAddress}
    (hreplaceable : manager.replaceable paper derived = first :: others) :
    ∃ exchanged, manager.exchange first device = some exchanged ∧
      exchanged.threshold = manager.threshold ∧
      exchanged.owners.length = manager.owners.length ∧
      ∀ x, x ∈ exchanged.owners ↔ x = device ∨ x = paper ∨ x = derived ∨ x ∈ others := by
  have hmem : ∀ x, x ∈ manager.owners ↔ x = paper ∨ x = derived ∨ x = first ∨ x ∈ others := by
    intro x
    have hrest : x ∈ manager.replaceable paper derived ↔
        x ∈ manager.owners ∧ x ≠ paper ∧ x ≠ derived := mem_replaceable
    rw [hreplaceable] at hrest
    have := h.paper_mem
    have := h.derived_mem
    grind
  have hfirst : first ∈ manager.owners := by simp [hmem]
  have hdevice : device = first ∨ manager.CanAdd device := by
    by_cases hmember : device ∈ manager.owners
    · have := h.device_first hmember
      rw [hreplaceable, List.head?_cons] at this
      exact .inl (Option.some.inj this).symm
    · exact .inr ⟨(h.valid device (by simp)).1, (h.valid device (by simp)).2, hmember⟩
  obtain ⟨exchanged, hexchange⟩ := exists_exchange hfirst hdevice
  obtain ⟨-, hsame, hlength, howners⟩ := exchange_spec hexchange hfirst
  refine ⟨exchanged, hexchange, hsame, hlength, fun x => ?_⟩
  have hout : first ≠ paper ∧ first ≠ derived ∧ first ∉ others := by
    have hnodup := hreplaceable ▸ (nodup_replaceable : (manager.replaceable paper derived).Nodup)
    have := mem_replaceable.mp (hreplaceable ▸ List.mem_cons_self :
      first ∈ manager.replaceable paper derived)
    exact ⟨this.2.1, this.2.2, (List.nodup_cons.mp hnodup).1⟩
  rw [howners, hmem]
  grind

/-- Under its conditions the plan succeeds and gives the right owners. -/
theorem Recoverable.recovered (h : manager.Recoverable device paper derived authenticator)
    (hscheme : (manager.threshold.toNat = 1 ∧ manager.owners.length = 3) ∨
      (manager.threshold.toNat = 2 ∧ manager.owners.length = 4)) :
    ∃ manager', manager.recovered device paper derived authenticator = some manager' ∧
      manager'.HasOwners device paper derived authenticator := by
  have hdistinct := h.distinct
  have hcount := length_replaceable h.paper_mem h.derived_mem (by simp at hdistinct; tauto)
  have hout : ∀ x ∈ manager.replaceable paper derived, x ≠ paper ∧ x ≠ derived :=
    fun x hx => (mem_replaceable.mp hx).2
  rcases hscheme with ⟨hthreshold, hlength⟩ | ⟨hthreshold, hlength⟩
  · obtain ⟨first, hreplaceable⟩ := List.length_eq_one_iff.mp (show
      (manager.replaceable paper derived).length = 1 by omega)
    obtain ⟨exchanged, hexchange, hsame, hlength', hmem⟩ := h.exists_exchanged hreplaceable
    cases authenticator with
    | none =>
        refine ⟨exchanged, by simp [OwnerManager.recovered, hreplaceable, hexchange, hlength], ?_, ?_⟩
        · simpa using hmem
        · simpa [hsame] using hthreshold
    | some a =>
        have hvalid := h.valid a (by simp)
        have hnew : a ∉ exchanged.owners := by
          rw [hmem]
          simp at hdistinct ⊢
          grind
        have hnone : ¬ (a = sentinel ∨ a ∈ exchanged.owners) := by
          rintro (ha | ha)
          · exact hvalid.2 ha
          · exact hnew ha
        obtain ⟨manager', hadd⟩ : ∃ manager', exchanged.addOwnerWithThreshold a 2#256 =
            some manager' := exists_add ⟨hvalid.1, hvalid.2, hnew⟩ (by simp; omega)
        obtain ⟨-, hthreshold', howners⟩ := add_spec hadd
        refine ⟨manager', ?_, fun x => ?_, by simp [hthreshold']⟩
        · simp [OwnerManager.recovered, hreplaceable, hexchange, hlength, hnone, hadd]
        · rw [howners, List.mem_cons, hmem]
          simp
          tauto
  · obtain ⟨first, second, hreplaceable⟩ := List.length_eq_two.mp (show
      (manager.replaceable paper derived).length = 2 by omega)
    obtain ⟨exchanged, hexchange, hsame, hlength', hmem⟩ := h.exists_exchanged hreplaceable
    have hsecond : second ∈ exchanged.owners := by simp [hmem]
    have hother := hout second (by simp [hreplaceable])
    have hdevice : second ≠ device := by
      rintro rfl
      have hmember : second ∈ manager.owners :=
        (mem_replaceable.mp (show second ∈ manager.replaceable paper derived by
          simp [hreplaceable])).1
      have hfirst := h.device_first hmember
      have hnodup := hreplaceable ▸ (nodup_replaceable : (manager.replaceable paper derived).Nodup)
      rw [hreplaceable, List.head?_cons, Option.some.injEq] at hfirst
      simp [hfirst] at hnodup
    cases authenticator with
    | none =>
        obtain ⟨manager', hdiscard⟩ : ∃ manager', exchanged.discard second 1#256 = some manager' :=
          exists_discard hsecond (by simp; omega)
        obtain ⟨-, hthreshold', howners⟩ := discard_spec hdiscard
        refine ⟨manager', ?_, fun x => ?_, by simp [hthreshold']⟩
        · simp [OwnerManager.recovered, hreplaceable, hexchange, hlength, hdiscard]
        · rw [howners, exchanged.nodup.mem_erase_iff, hmem]
          simp
          grind
    | some a =>
        have hvalid := h.valid a (by simp)
        have hnew : a = second ∨ exchanged.CanAdd a := by
          by_cases heq : a = second
          · exact .inl heq
          · refine .inr ⟨hvalid.1, hvalid.2, ?_⟩
            rw [hmem]
            simp at hdistinct ⊢
            grind
        obtain ⟨manager', hexchange'⟩ := exists_exchange hsecond hnew
        obtain ⟨-, hsame', -, hmem'⟩ := exchange_spec hexchange' hsecond
        refine ⟨manager', ?_, fun x => ?_, by simp [hsame', hsame, hthreshold]⟩
        · simp [OwnerManager.recovered, hreplaceable, hexchange, hlength, hexchange']
        · rw [hmem', hmem]
          simp
          grind

/-- If the contract already has the owners, the replaceable ones are in their
places. -/
theorem Recoverable.replaceable_eq (h : manager.Recoverable device paper derived authenticator)
    (howners : manager.HasOwners device paper derived authenticator) :
    manager.replaceable paper derived = device :: authenticator.toList := by
  have hdistinct := h.distinct
  have hperm : manager.owners.Perm ([device, paper, derived] ++ authenticator.toList) :=
    (List.perm_ext_iff_of_nodup manager.nodup hdistinct).mpr howners.1
  have hdevice : device ∈ manager.owners := (howners.1 device).mpr (by simp)
  obtain ⟨others, hreplaceable⟩ := List.head?_eq_some_iff.mp (h.device_first hdevice)
  have hcount := length_replaceable h.paper_mem h.derived_mem (by simp at hdistinct; tauto)
  rw [hperm.length_eq, hreplaceable] at hcount
  have hothers : ∀ x ∈ others, x ∈ authenticator.toList := by
    intro x hx
    have hnodup := hreplaceable ▸ (nodup_replaceable : (manager.replaceable paper derived).Nodup)
    have hne : x ≠ device := by
      rintro rfl
      exact (List.nodup_cons.mp hnodup).1 hx
    have hmem := mem_replaceable.mp (hreplaceable ▸ List.mem_cons_of_mem device hx :
      x ∈ manager.replaceable paper derived)
    have htarget := (howners.1 x).mp hmem.1
    simp only [List.cons_append, List.mem_cons, List.nil_append] at htarget
    tauto
  rw [hreplaceable]
  cases authenticator with
  | none =>
      cases others with
      | nil => rfl
      | cons x rest => simp at hcount
  | some a =>
      obtain ⟨x, rfl⟩ := List.length_eq_one_iff.mp (show others.length = 1 by simpa using hcount)
      have := hothers x (by simp)
      simp only [Option.toList_some, List.mem_singleton] at this
      rw [this]
      rfl

end Recovered

end OwnerManager

end SafeWallet
