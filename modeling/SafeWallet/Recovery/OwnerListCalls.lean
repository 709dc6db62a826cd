/-
# The copy follows the contract

While a recovery is planned, owners are replaced in the copy of the owner list and removed
from it as the contract will do when the calls are executed. Whatever the sequence of calls,
and in whichever letter case they name the owners, the copy stays the copy of the list on
the chain: the owners are the same, in the same order, and so is what stands before each.
-/

import SafeWallet.Recovery.OwnerLinkedList

namespace SafeWallet

open SafeOwnerManagerContractProxy

namespace OwnerLinkedList

/-- The copy of the owners that the contract returns. -/
def ofOwners (owners : List Address) : Trapping OwnerLinkedList := owners.foldlM add empty

/-- A change of the copy, with the owners as they are written in the call. -/
inductive Call
  | replace (oldOwner newOwner : Address)
  | remove (owner : Address)
  deriving DecidableEq, Repr

/-- The change made to the copy. -/
def apply (copy : OwnerLinkedList) : Call → OwnerLinkedList
  | .replace oldOwner newOwner => copy.replace oldOwner newOwner
  | .remove owner => copy.remove owner

namespace Call

/-- The change made to the list on the chain. -/
def onChain (owners : List ChainAddress) : Call → List ChainAddress
  | .replace oldOwner newOwner => owners.replace oldOwner.onChain newOwner.onChain
  | .remove owner => owners.erase owner.onChain

/-- The call names addresses, and the contract finds the owner and can take the new one. -/
def Succeeds (owners : List ChainAddress) : Call → Prop
  | .replace oldOwner newOwner => oldOwner.WellFormed ∧ newOwner.WellFormed ∧
      oldOwner.onChain ∈ owners ∧ newOwner.onChain ∉ owners ∧
      newOwner.onChain ≠ OwnerManager.sentinel
  | .remove owner => owner.WellFormed ∧ owner.onChain ∈ owners

instance (owners : List ChainAddress) (call : Call) : Decidable (call.Succeeds owners) :=
  match call with
  | .replace _ _ => inferInstanceAs (Decidable (_ ∧ _ ∧ _ ∧ _ ∧ _))
  | .remove _ => inferInstanceAs (Decidable (_ ∧ _))

/-- Every call of a sequence succeeds on the list that the calls before it leave. -/
def AllSucceed (owners : List ChainAddress) : List Call → Prop
  | [] => True
  | call :: rest => call.Succeeds owners ∧ AllSucceed (call.onChain owners) rest

variable {manager manager' : OwnerManager} {a b : Address} {prev : ChainAddress}

/-- A swap that the contract executes is a replacement that succeeds. -/
theorem succeeds_of_swapOwner (ha : a.WellFormed) (hb : b.WellFormed)
    (h : manager.swapOwner prev a.onChain b.onChain = some manager') :
    (replace a b).Succeeds manager.owners ∧
      manager'.owners = (replace a b).onChain manager.owners := by
  unfold OwnerManager.swapOwner at h
  split at h
  · rename_i hcan
    cases h
    exact ⟨⟨ha, hb, hcan.2.mem, hcan.1.2.2, hcan.1.2.1⟩, rfl⟩
  · cases h

/-- A removal that the contract executes is one that succeeds. -/
theorem succeeds_of_removeOwner {threshold : BitVec 256} (ha : a.WellFormed)
    (h : manager.removeOwner prev a.onChain threshold = some manager') :
    (remove a).Succeeds manager.owners ∧ manager'.owners = (remove a).onChain manager.owners := by
  unfold OwnerManager.removeOwner at h
  split at h
  · rename_i hcan
    cases h
    exact ⟨⟨ha, hcan.1.mem⟩, rfl⟩
  · cases h

end Call

/-! ## One call -/

variable {copy : OwnerLinkedList} {owners : List ChainAddress}

theorem Represents.remove {a : Address} (h : copy.Represents owners) (ha : a.WellFormed)
    (hmem : a.onChain ∈ owners) (hsentinel : a.onChain ≠ OwnerManager.sentinel) :
    (copy.remove a).Represents (owners.erase a.onChain) := by
  obtain ⟨i, hindex, herase⟩ := Linked.copy_eraseIdx Address.ofChain_injective hsentinel hmem
  rw [← h, ← ha.normalized_eq_ofChain] at hindex
  rw [← h] at herase
  simp only [Represents, OwnerLinkedList.remove, firstIndex, hindex, herase]

/-- A list of owners: they are different and none is the sentinel. -/
structure Proper (owners : List ChainAddress) : Prop where
  nodup : owners.Nodup
  sentinel : OwnerManager.sentinel ∉ owners

theorem Proper.onChain {call : Call} (h : Proper owners) (hcall : call.Succeeds owners) :
    Proper (call.onChain owners) := by
  cases call with
  | replace oldOwner newOwner =>
      obtain ⟨-, -, hold, hnew, hsentinel⟩ := hcall
      refine ⟨Linked.nodup_replace h.nodup hnew, fun hmem => ?_⟩
      rcases (Linked.mem_replace h.nodup hold).mp hmem with heq | ⟨hmem, -⟩
      · exact hsentinel heq.symm
      · exact h.sentinel hmem
  | remove owner =>
      exact ⟨h.nodup.erase _, fun hmem => h.sentinel (List.mem_of_mem_erase hmem)⟩

/-- The copy follows one call. -/
theorem Represents.apply {call : Call} (h : copy.Represents owners) (hproper : Proper owners)
    (hcall : call.Succeeds owners) : (copy.apply call).Represents (call.onChain owners) := by
  have hne : ∀ {x : ChainAddress}, x ∈ owners → x ≠ OwnerManager.sentinel :=
    fun hmem heq => hproper.sentinel (heq ▸ hmem)
  cases call with
  | replace oldOwner newOwner =>
      obtain ⟨hold, hnew, hmem, -, -⟩ := hcall
      exact h.replace hold hnew hmem (hne hmem)
  | remove owner => exact h.remove hcall.1 hcall.2 (hne hcall.2)

/-! ## All calls -/

theorem Represents.applyAll {calls : List Call} (h : copy.Represents owners)
    (hproper : Proper owners) (hcalls : Call.AllSucceed owners calls) :
    (calls.foldl OwnerLinkedList.apply copy).Represents (calls.foldl Call.onChain owners) ∧
      Proper (calls.foldl Call.onChain owners) := by
  induction calls generalizing copy owners with
  | nil => exact ⟨h, hproper⟩
  | cons call rest ih =>
      obtain ⟨hcall, hrest⟩ := hcalls
      exact ih (h.apply hproper hcall) (hproper.onChain hcall) hrest

/-- The copy shows the list on the chain: it lies between sentinels, has the owners in their
order, and finds before each owner what the contract finds. -/
structure Mirrors (copy : OwnerLinkedList) (owners : List ChainAddress) : Prop where
  first : copy.list.head? = some sentinelAddress
  last : copy.list.getLast? = some sentinelAddress
  contents : copy.contents = owners.map Address.ofChain
  addressBefore : ∀ a : Address, a.WellFormed → a.onChain ∈ owners →
    ∃ prev, copy.addressBefore a = .ok (Address.ofChain prev) ∧
      Linked.PointsTo OwnerManager.sentinel owners prev a.onChain

theorem Represents.mirrors (h : copy.Represents owners) (hproper : Proper owners) :
    copy.Mirrors owners where
  first := by
    rw [h, sentinelAddress_eq]
    rfl
  last := by
    rw [h, sentinelAddress_eq, Linked.enclosed, List.map_append, List.map_singleton,
      List.getLast?_concat]
  contents := h.contents hproper.sentinel
  addressBefore := fun _ ha hmem =>
    h.addressBefore ha hmem fun heq => hproper.sentinel (heq ▸ hmem)

/-- The copy of no owners is the sentinel alone. -/
theorem empty_mirrors : empty.Mirrors [] where
  first := rfl
  last := rfl
  contents := by simp [contents, empty]
  addressBefore := fun _ _ hmem => absurd hmem List.not_mem_nil

/-- After any calls that succeed the copy of the contract's owners shows the list on the
chain. -/
theorem mirrors_applyAll {addresses : List Address} {calls : List Call}
    (hwf : ∀ a ∈ addresses, a.WellFormed) (hproper : Proper (addresses.map Address.onChain))
    (hcalls : Call.AllSucceed (addresses.map Address.onChain) calls) :
    ∃ copy, ofOwners addresses = .ok copy ∧
      (calls.foldl apply copy).Mirrors
        (calls.foldl Call.onChain (addresses.map Address.onChain)) := by
  by_cases hne : addresses = []
  · subst hne
    cases calls with
    | nil => exact ⟨empty, rfl, empty_mirrors⟩
    | cons call rest =>
        -- No call succeeds on a list without owners.
        obtain ⟨hcall, -⟩ := hcalls
        cases call with
        | replace oldOwner newOwner => exact absurd hcall.2.2.1 List.not_mem_nil
        | remove owner => exact absurd hcall.2 List.not_mem_nil
  · obtain ⟨copy, hcopy, hrepresents⟩ := represents_foldlM_add hne hwf
    obtain ⟨hafter, hproper'⟩ := hrepresents.applyAll hproper hcalls
    exact ⟨copy, hcopy, hafter.mirrors hproper'⟩

/-- An owner with the checksum in its text. -/
def checksummedOwner : Address := ⟨"0x5aAeb6053F3E94C9b9A09f33669435E7Ef1BeAed"⟩

theorem onChain_checksummedOwner :
    checksummedOwner.onChain = 0x5aaeb6053f3e94c9b9a09f33669435e7ef1beaed := by
  decide +kernel

/-- An owner with a checksum is removed under its other spelling and then takes the place of
another one. -/
theorem mirrors_two_calls : ∃ copy,
    ofOwners [.ofChain 7, .ofChain 8, checksummedOwner] = .ok copy ∧
      ([.remove ⟨"0x5aaeb6053f3e94c9b9a09f33669435e7ef1beaed"⟩,
        .replace (.ofChain 7) checksummedOwner].foldl apply copy).Mirrors
        [0x5aaeb6053f3e94c9b9a09f33669435e7ef1beaed, 8] := by
  have hlower : Address.onChain ⟨"0x5aaeb6053f3e94c9b9a09f33669435e7ef1beaed"⟩ =
      0x5aaeb6053f3e94c9b9a09f33669435e7ef1beaed := by decide +kernel
  have hlower_wf : Address.WellFormed ⟨"0x5aaeb6053f3e94c9b9a09f33669435e7ef1beaed"⟩ := by
    decide +kernel
  have hchecksummed_wf : checksummedOwner.WellFormed := by decide +kernel
  have hwf : ∀ a ∈ [Address.ofChain 7, .ofChain 8, checksummedOwner], a.WellFormed := by
    simp [(Address.ofChain_spec _).1, hchecksummed_wf]
  have hproper :
      Proper ([Address.ofChain 7, .ofChain 8, checksummedOwner].map Address.onChain) := by
    simp only [List.map_cons, List.map_nil, Address.onChain_ofChain, onChain_checksummedOwner]
    exact ⟨by decide, by decide⟩
  have hcalls : Call.AllSucceed
      ([Address.ofChain 7, .ofChain 8, checksummedOwner].map Address.onChain)
      [.remove ⟨"0x5aaeb6053f3e94c9b9a09f33669435e7ef1beaed"⟩,
        .replace (.ofChain 7) checksummedOwner] := by
    simp only [List.map_cons, List.map_nil, Address.onChain_ofChain, onChain_checksummedOwner,
      hlower, Call.AllSucceed, Call.Succeeds, Call.onChain, (Address.ofChain_spec _).1,
      hlower_wf, hchecksummed_wf, true_and]
    decide
  obtain ⟨copy, hcopy, hmirrors⟩ := mirrors_applyAll hwf hproper hcalls
  refine ⟨copy, hcopy, ?_⟩
  simp only [List.foldl_cons, List.foldl_nil, List.map_cons, List.map_nil, Call.onChain,
    Address.onChain_ofChain, onChain_checksummedOwner, hlower] at hmirrors
  exact hmirrors

end OwnerLinkedList

end SafeWallet
