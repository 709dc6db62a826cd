/-
# The program's copy of the owner list

While it plans owner changes, the program keeps the contract's list as a sequence
of lower-case addresses with the sentinel at both ends, and looks the neighbour of
an owner up one place before it. `Represents` says which owners of the contract a
copy stands for; every operation of the copy follows the one of the contract.
-/

import SafeWallet.Wallet.OwnerManager

namespace SafeWallet

open SafeOwnerManagerContractProxy

/-- `OwnerLinkedList`. -/
structure OwnerLinkedList where
  list : List Address
  deriving DecidableEq, Repr

namespace OwnerLinkedList

/-- `OwnerLinkedList()`. -/
def empty : OwnerLinkedList := ⟨[sentinelAddress]⟩

variable (owners : OwnerLinkedList)

/-- `firstIndex(of:)`. -/
def firstIndex (owner : Address) : Option ℕ := owners.list.idxOf? owner.normalized

/-- `contains(_:)`. -/
def contains (owner : Address) : Bool := owner.normalized ∈ owners.list

/-- `add(_:)`: in front of the last sentinel. -/
def add (owner : Address) : Trapping OwnerLinkedList :=
  match owners.list.getLast? with
  | none => .error .precondition
  | some sentinel =>
    let list := owners.list.dropLast
    let list := if list.isEmpty then list ++ [sentinel] else list
    return ⟨list ++ [owner.normalized] ++ [sentinel]⟩

/-- `replace(_:with:)`. -/
def replace (oldOwner newOwner : Address) : OwnerLinkedList :=
  match owners.firstIndex oldOwner with
  | none => owners
  | some index => ⟨owners.list.set index newOwner.normalized⟩

/-- `remove(_:)`. -/
def remove (address : Address) : OwnerLinkedList :=
  match owners.firstIndex address with
  | none => owners
  | some index => ⟨owners.list.eraseIdx index⟩

/-- `addressBefore(_:)`. There is nothing before the first sentinel. -/
def addressBefore (owner : Address) : Trapping Address := do
  match ← Trapping.unwrap (owners.firstIndex owner) with
  | 0 => .error .precondition
  | index + 1 => Trapping.unwrap owners.list[index]?

/-- `addressAfter(_:)`. There is nothing after the last element. -/
def addressAfter (owner : Address) : Trapping (Option Address) := do
  let index ← Trapping.unwrap (owners.firstIndex owner)
  match owners.list[index + 1]? with
  | some address => return some address
  | none => .error .precondition

/-- `firstAddress()`. -/
def firstAddress : Option Address := owners.list.find? (· ≠ sentinelAddress)

/-- `contents`. -/
def contents : List Address := owners.list.filter (· ≠ sentinelAddress)

/-! ## The owners a copy stands for -/

/-- The copy of a list of owners. -/
def Represents (copied : List ChainAddress) : Prop :=
  owners.list = (Linked.enclosed OwnerManager.sentinel copied).map Address.ofChain

theorem sentinelAddress_eq : sentinelAddress = Address.ofChain OwnerManager.sentinel := by
  have hbytes : Data.leftPadded 20 [0x1] =
      Data.leftPadded 20 (Data.endTruncated 20 (Data.ofEthHex (Nat.toDigits 16 1))) := by
    decide +kernel
  rw [sentinelAddress, hbytes]
  rfl

variable {owners} {copied : List ChainAddress} {a b : Address}

/-- The copy of a longer list. -/
theorem Represents.add (h : owners.Represents copied) (ha : a.WellFormed) :
    ∃ owners', owners.add a = .ok owners' ∧ owners'.Represents (copied ++ [a.onChain]) := by
  have hlist : owners.list = (OwnerManager.sentinel :: copied).map Address.ofChain ++
      [Address.ofChain OwnerManager.sentinel] := by
    rw [h, Linked.enclosed, List.map_append]
    rfl
  refine ⟨⟨(OwnerManager.sentinel :: copied).map Address.ofChain ++ [a.normalized] ++
    [Address.ofChain OwnerManager.sentinel]⟩, ?_, ?_⟩
  · simp only [OwnerLinkedList.add, hlist, List.getLast?_concat, List.dropLast_concat]
    rfl
  · simp [Represents, Linked.enclosed, ha.normalized_eq_ofChain]

/-- The copy of a list with one owner. -/
theorem represents_add_empty (ha : a.WellFormed) :
    ∃ owners, empty.add a = .ok owners ∧ owners.Represents [a.onChain] := by
  refine ⟨⟨[sentinelAddress, a.normalized, sentinelAddress]⟩, rfl, ?_⟩
  simp [Represents, Linked.enclosed, sentinelAddress_eq, ha.normalized_eq_ofChain]

/-- `forEach { ownerList.add($0) }` copies addresses in their order, whatever the letter case. -/
theorem represents_foldlM_add {addresses : List Address} (hne : addresses ≠ [])
    (hwf : ∀ a ∈ addresses, a.WellFormed) :
    ∃ copy, addresses.foldlM OwnerLinkedList.add empty = .ok copy ∧
      copy.Represents (addresses.map Address.onChain) := by
  induction addresses using List.reverseRecOn with
  | nil => exact absurd rfl hne
  | append_singleton front last ih =>
      have hlast : last.WellFormed := hwf last (by simp)
      have hfront : ∀ a ∈ front, a.WellFormed := fun a ha => hwf a (by simp [ha])
      cases front with
      | nil =>
          obtain ⟨copy, hadd, hcopy⟩ := represents_add_empty hlast
          refine ⟨copy, ?_, hcopy⟩
          simp only [List.nil_append, List.foldlM_cons, List.foldlM_nil, hadd,
            Trapping.ok_bind, Trapping.pure_eq_ok]
      | cons first rest =>
          obtain ⟨copy, hfold, hcopy⟩ := ih (List.cons_ne_nil _ _) hfront
          obtain ⟨copy', hadd, hcopy'⟩ := hcopy.add hlast
          refine ⟨copy', ?_, by simpa using hcopy'⟩
          rw [List.foldlM_append, hfold]
          simp only [List.foldlM_cons, List.foldlM_nil, Trapping.ok_bind, hadd,
            Trapping.pure_eq_ok]

theorem represents_foldlM (remote : List ChainAddress) (hne : remote ≠ []) :
    ∃ owners, (remote.map Address.ofChain).foldlM OwnerLinkedList.add empty = .ok owners ∧
      owners.Represents remote := by
  have hwf : ∀ a ∈ remote.map Address.ofChain, a.WellFormed := by
    intro a ha
    obtain ⟨x, -, rfl⟩ := List.mem_map.mp ha
    exact (Address.ofChain_spec x).1
  have hsame : (remote.map Address.ofChain).map Address.onChain = remote := by
    simp [Function.comp_def]
  obtain ⟨owners, hfold, howners⟩ := represents_foldlM_add (by simpa using hne) hwf
  rw [hsame] at howners
  exact ⟨owners, hfold, howners⟩

/-- The neighbour of an owner. -/
theorem Represents.addressBefore (h : owners.Represents copied) (ha : a.WellFormed)
    (hmem : a.onChain ∈ copied) (hsentinel : a.onChain ≠ OwnerManager.sentinel) :
    ∃ prev, owners.addressBefore a = .ok (Address.ofChain prev) ∧
      Linked.PointsTo OwnerManager.sentinel copied prev a.onChain := by
  obtain ⟨i, prev, hindex, hprev, hpoints⟩ :=
    Linked.copy_before Address.ofChain_injective hsentinel hmem
  refine ⟨prev, ?_, hpoints⟩
  rw [← h, ← ha.normalized_eq_ofChain] at hindex
  rw [← h] at hprev
  simp only [OwnerLinkedList.addressBefore, firstIndex, hindex, Trapping.unwrap_some,
    Trapping.ok_bind, hprev]

/-- Nothing stands before the sentinel. -/
theorem Represents.addressBefore_sentinel (h : owners.Represents copied) (ha : a.WellFormed)
    (hsentinel : a.onChain = OwnerManager.sentinel) :
    owners.addressBefore a = .error .precondition := by
  have hindex : owners.firstIndex a = some 0 := by
    rw [firstIndex, h, ha.normalized_eq_ofChain, hsentinel]
    simp [Linked.enclosed, List.idxOf?_cons]
  simp only [OwnerLinkedList.addressBefore, hindex, Trapping.unwrap_some, Trapping.ok_bind]

theorem Represents.replace (h : owners.Represents copied) (ha : a.WellFormed) (hb : b.WellFormed)
    (hmem : a.onChain ∈ copied) (hsentinel : a.onChain ≠ OwnerManager.sentinel) :
    (owners.replace a b).Represents (copied.replace a.onChain b.onChain) := by
  obtain ⟨i, hindex, hset⟩ := Linked.copy_set (y := b.onChain) Address.ofChain_injective
    hsentinel hmem
  rw [← h, ← ha.normalized_eq_ofChain] at hindex
  rw [← h, ← hb.normalized_eq_ofChain] at hset
  simp only [Represents, OwnerLinkedList.replace, firstIndex, hindex, hset]

theorem Represents.contains (h : owners.Represents copied) (ha : a.WellFormed) :
    owners.contains a = true ↔ a.onChain = OwnerManager.sentinel ∨ a.onChain ∈ copied := by
  rw [OwnerLinkedList.contains, decide_eq_true_eq, h, ha.normalized_eq_ofChain,
    List.mem_map_of_injective Address.ofChain_injective]
  simp [Linked.enclosed]
  tauto

/-- Without the sentinels the copy is the list of the owners. -/
theorem Represents.contents (h : owners.Represents copied)
    (hsentinel : OwnerManager.sentinel ∉ copied) :
    owners.contents = copied.map Address.ofChain := by
  rw [OwnerLinkedList.contents, h, sentinelAddress_eq, Linked.enclosed, List.filter_map]
  congr 1
  have hkeep : copied.filter (fun x => decide (Address.ofChain x ≠
      Address.ofChain OwnerManager.sentinel)) = copied := by
    rw [List.filter_eq_self]
    intro x hx
    rw [decide_eq_true_eq, Address.ofChain_injective.ne_iff]
    exact fun heq => hsentinel (heq ▸ hx)
  simpa [Function.comp_def] using hkeep

theorem Represents.firstAddress {first : ChainAddress} {rest : List ChainAddress}
    (h : owners.Represents (first :: rest)) (hfirst : first ≠ OwnerManager.sentinel) :
    owners.firstAddress = some (Address.ofChain first) := by
  rw [OwnerLinkedList.firstAddress, h, sentinelAddress_eq, Linked.enclosed]
  simp [Address.ofChain_injective.ne_iff.mpr hfirst]

/-- After the first owner comes the second one, or the sentinel. -/
theorem Represents.addressAfter {first : ChainAddress} {rest : List ChainAddress}
    (h : owners.Represents (first :: rest)) (hfirst : first ≠ OwnerManager.sentinel) :
    owners.addressAfter (Address.ofChain first) =
      .ok (some (Address.ofChain (rest.headD OwnerManager.sentinel))) := by
  have hne := Address.ofChain_injective.ne_iff.mpr hfirst
  have hindex : owners.firstIndex (Address.ofChain first) = some 1 := by
    rw [firstIndex, h, Linked.enclosed, Address.normalized_ofChain]
    simp [List.idxOf?_cons, hne.symm]
  have hnext : owners.list[1 + 1]? =
      some (Address.ofChain (rest.headD OwnerManager.sentinel)) := by
    rw [h]
    cases rest <;> rfl
  simp only [OwnerLinkedList.addressAfter, hindex, Trapping.unwrap_some, Trapping.ok_bind, hnext,
    Trapping.pure_eq_ok]

end OwnerLinkedList

end SafeWallet
