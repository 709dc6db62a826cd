/-
# The owners of a Safe contract

The contract keeps its owners in a list linked from the sentinel `0x1` and changes
it through three functions that take the neighbour of the owner they touch. The
first half of this module is the contract: its state, the functions with their
requirements, and the dispatch of call data to them. The second half is
`SafeOwnerManagerContractProxy`, with which the program writes that call data and
reads the owners. The two meet in the theorems that executing what the proxy wrote
is applying the function it names.
-/

import Mathlib.Data.Fintype.Card
import SafeWallet.Base.Linked
import SafeWallet.DomainRegistry

namespace SafeWallet

/-- An address on the chain. -/
abbrev ChainAddress := BitVec 160

namespace Address

/-- The address a text denotes on the chain. -/
def onChain (a : Address) : ChainAddress := BitVec.ofNat 160 a.toUInt

/-- The text the program writes for an address on the chain. -/
def ofChain (x : ChainAddress) : Address := ofUInt x.toNat

variable {a b : Address} {x : ChainAddress}

theorem ofChain_spec (x : ChainAddress) : (ofChain x).WellFormed ∧ (ofChain x).toUInt = x.toNat ∧
    (ofChain x).normalized = ofChain x :=
  ofUInt_spec x.isLt

@[simp]
theorem onChain_ofChain (x : ChainAddress) : (ofChain x).onChain = x := by
  rw [onChain, (ofChain_spec x).2.1, BitVec.ofNat_toNat, BitVec.setWidth_eq]

theorem ofChain_injective : Function.Injective ofChain :=
  Function.LeftInverse.injective onChain_ofChain

theorem WellFormed.toNat_onChain (h : a.WellFormed) : a.onChain.toNat = a.toUInt := by
  rw [onChain, BitVec.toNat_ofNat, Nat.mod_eq_of_lt h.toUInt_lt]

/-- In lower case an address is written as the program writes it. -/
theorem WellFormed.normalized_eq_ofChain (h : a.WellFormed) : a.normalized = ofChain a.onChain := by
  rw [ofChain, h.toNat_onChain, h.normalized_eq_ofUInt]

@[simp]
theorem normalized_ofChain (x : ChainAddress) : (ofChain x).normalized = ofChain x :=
  (ofChain_spec x).2.2

/-- Equal in lower case is equal on the chain. -/
theorem WellFormed.normalized_eq_iff (ha : a.WellFormed) (hb : b.WellFormed) :
    a.normalized = b.normalized ↔ a.onChain = b.onChain := by
  rw [ha.normalized_eq_ofChain, hb.normalized_eq_ofChain, ofChain_injective.eq_iff]

end Address

/-! ## The contract -/

/-- The owners in the order of the list and the number of confirmations. -/
structure OwnerManager where
  owners : List ChainAddress
  threshold : BitVec 256
  nodup : owners.Nodup
  valid : ∀ owner ∈ owners, owner ≠ 0 ∧ owner ≠ 1

namespace OwnerManager

open Linked

/-- The start of the list. -/
def sentinel : ChainAddress := 1

variable (manager : OwnerManager)

/-- An address that can be made an owner. -/
def CanAdd (owner : ChainAddress) : Prop :=
  owner ≠ 0 ∧ owner ≠ sentinel ∧ owner ∉ manager.owners

instance (owner : ChainAddress) : Decidable (manager.CanAdd owner) :=
  inferInstanceAs (Decidable (_ ∧ _ ∧ _))

/-- `swapOwner(address,address,address)`. -/
def swapOwner (prev old new : ChainAddress) : Option OwnerManager :=
  if h : manager.CanAdd new ∧ PointsTo sentinel manager.owners prev old then
    some {
      owners := manager.owners.replace old new
      threshold := manager.threshold
      nodup := nodup_replace manager.nodup h.1.2.2
      valid := by
        intro owner hmem
        rcases (mem_replace manager.nodup h.2.mem).mp hmem with rfl | ⟨hmem, -⟩
        · exact ⟨h.1.1, h.1.2.1⟩
        · exact manager.valid owner hmem }
  else none

/-- `addOwnerWithThreshold(address,uint256)`: the new owner comes first. -/
def addOwnerWithThreshold (owner : ChainAddress) (threshold : BitVec 256) : Option OwnerManager :=
  if h : manager.CanAdd owner ∧
      (1 ≤ threshold.toNat ∧ threshold.toNat ≤ manager.owners.length + 1) then
    some {
      owners := owner :: manager.owners
      threshold := threshold
      nodup := List.nodup_cons.mpr ⟨h.1.2.2, manager.nodup⟩
      valid := by
        intro other hmem
        rcases List.mem_cons.mp hmem with rfl | hmem
        · exact ⟨h.1.1, h.1.2.1⟩
        · exact manager.valid other hmem }
  else none

/-- `removeOwner(address,address,uint256)`. -/
def removeOwner (prev owner : ChainAddress) (threshold : BitVec 256) : Option OwnerManager :=
  if PointsTo sentinel manager.owners prev owner ∧
      (1 ≤ threshold.toNat ∧ threshold.toNat + 1 ≤ manager.owners.length) then
    some {
      owners := manager.owners.erase owner
      threshold := threshold
      nodup := manager.nodup.erase owner
      valid := fun other hmem => manager.valid other (List.mem_of_mem_erase hmem) }
  else none

/-- An argument word of call data. -/
def argument (data : Data) (i : ℕ) : ℕ := ContractProxy.decodeUInt (data.drop (4 + 32 * i))

/-- The call of an owner function, by its method identifier. -/
def execute (data : Data) : Option OwnerManager :=
  let address i : ChainAddress := BitVec.ofNat 160 (argument data i)
  let number i := BitVec.ofNat 256 (argument data i)
  if data.take 4 = [0xe3, 0x18, 0xb5, 0x2b] then
    manager.swapOwner (address 0) (address 1) (address 2)
  else if data.take 4 = [0x0d, 0x58, 0x2f, 0x13] then
    manager.addOwnerWithThreshold (address 0) (number 1)
  else if data.take 4 = [0xf8, 0xdc, 0x5d, 0xd9] then
    manager.removeOwner (address 0) (address 1) (number 2)
  else none

/-- Calls executed one after the other; the first that fails undoes them all. -/
def executeAll (calls : List Data) : Option OwnerManager := calls.foldlM execute manager

end OwnerManager

/-! ## The proxy -/

namespace SafeOwnerManagerContractProxy

open ContractProxy

/-- `sentinelAddress`. -/
def sentinelAddress : Address :=
  ⟨String.ofList ('0' :: 'x' :: Data.toHexString (Data.leftPadded 20 [0x1]))⟩

variable (services : Services) (contract : Address) (kit : EthereumKit)

/-- `getOwners()`, or nothing if the node throws. -/
def getOwners : Trapping (Option (List Address)) :=
  match services.eth_call contract (invocation services.kit "getOwners()" []) with
  | none => return none
  | some value => do
    let owners ← decodeArrayAddress value
    return some owners

/-- `getThreshold()`, or nothing if the node throws. -/
def getThreshold : Trapping (Option ℕ) :=
  match services.eth_call contract (invocation services.kit "getThreshold()" []) with
  | none => return none
  | some value => do
    let threshold ← Trapping.toInt (decodeUInt value)
    return some threshold

/-- `addOwner(_:newThreshold:)`. -/
def addOwner (address : Address) (threshold : ℕ) : Data :=
  invocation kit "addOwnerWithThreshold(address,uint256)"
    [encodeAddress address, encodeUInt threshold]

/-- `swapOwner(prevOwner:old:new:)`. -/
def swapOwner (prevOwner old new : Address) : Data :=
  invocation kit "swapOwner(address,address,address)"
    [encodeAddress prevOwner, encodeAddress old, encodeAddress new]

/-- `removeOwner(prevOwner:owner:newThreshold:)`. -/
def removeOwner (prevOwner owner : Address) (threshold : ℕ) : Data :=
  invocation kit "removeOwner(address,address,uint256)"
    [encodeAddress prevOwner, encodeAddress owner, encodeUInt threshold]

/-! ## The proxy and the contract -/

/-- The method identifiers the contract dispatches on are the hashes of its
functions' signatures. -/
structure OwnerSelectors : Prop where
  swapOwner : method kit "swapOwner(address,address,address)" = [0xe3, 0x18, 0xb5, 0x2b]
  addOwner : method kit "addOwnerWithThreshold(address,uint256)" = [0x0d, 0x58, 0x2f, 0x13]
  removeOwner : method kit "removeOwner(address,address,uint256)" = [0xf8, 0xdc, 0x5d, 0xd9]

/-- The node answers with the state of the contract. -/
structure Answers (manager : OwnerManager) : Prop where
  getOwners : services.eth_call contract (invocation services.kit "getOwners()" []) =
    some (encodeArrayUInt (manager.owners.map BitVec.toNat))
  getThreshold : services.eth_call contract (invocation services.kit "getThreshold()" []) =
    some (encodeUInt manager.threshold.toNat)

variable {services contract kit} {manager : OwnerManager}

/-- The words of a call are its arguments. -/
theorem argument_invocation {selector : String} (hselector : (method kit selector).length = 4)
    (words : List ℕ) (i : ℕ) (hi : i < words.length) :
    OwnerManager.argument (invocation kit selector (words.map encodeUInt)) i =
      words[i] % 2 ^ 256 := by
  have hsplit : ∀ (words : List ℕ) (i : ℕ) (hi : i < words.length),
      ∃ rest, ((words.map encodeUInt).flatten).drop (32 * i) = encodeUInt words[i] ++ rest := by
    intro words
    induction words with
    | nil => intro i hi; simp at hi
    | cons first rest ih =>
        intro i hi
        cases i with
        | zero => exact ⟨(rest.map encodeUInt).flatten, rfl⟩
        | succ i =>
            obtain ⟨after, hafter⟩ := ih i (by simpa using hi)
            refine ⟨after, ?_⟩
            rw [List.map_cons, List.flatten_cons, List.drop_append, length_encodeUInt,
              List.drop_of_length_le (by simp), List.nil_append,
              show 32 * (i + 1) - 32 = 32 * i by omega]
            exact hafter
  obtain ⟨rest, hrest⟩ := hsplit words i hi
  rw [OwnerManager.argument, invocation, ← List.drop_drop, List.drop_left' hselector, hrest,
    decodeUInt_encodeUInt]

theorem take_invocation {selector : String} {identifier : Data} (h : method kit selector = identifier)
    (hlength : identifier.length = 4) (words : List Data) :
    (invocation kit selector words).take 4 = identifier := by
  rw [invocation, h, ← hlength, List.take_left]

/-- An address argument is the low twenty bytes of its word. -/
theorem address_argument (a : Address) : BitVec.ofNat 160 (a.toUInt % 2 ^ 256) = a.onChain := by
  apply BitVec.eq_of_toNat_eq
  rw [Address.onChain, BitVec.toNat_ofNat, BitVec.toNat_ofNat, Nat.mod_mod_of_dvd _ (by norm_num)]

theorem number_argument (n : ℕ) : BitVec.ofNat 256 (n % 2 ^ 256) = BitVec.ofNat 256 n := by
  apply BitVec.eq_of_toNat_eq
  simp

theorem execute_swapOwner (h : OwnerSelectors kit) (prevOwner old new : Address) :
    manager.execute (swapOwner kit prevOwner old new) =
      manager.swapOwner prevOwner.onChain old.onChain new.onChain := by
  have htake : (swapOwner kit prevOwner old new).take 4 = [0xe3, 0x18, 0xb5, 0x2b] :=
    take_invocation h.swapOwner rfl _
  have hargument : ∀ i (hi : i < 3), OwnerManager.argument (swapOwner kit prevOwner old new) i =
      [prevOwner.toUInt, old.toUInt, new.toUInt][i] % 2 ^ 256 :=
    argument_invocation (by rw [h.swapOwner]; rfl) [prevOwner.toUInt, old.toUInt, new.toUInt]
  simp only [OwnerManager.execute, htake, ↓reduceIte, hargument 0 (by omega),
    hargument 1 (by omega), hargument 2 (by omega), List.getElem_cons_zero,
    List.getElem_cons_succ, address_argument]

theorem execute_addOwner (h : OwnerSelectors kit) (address : Address) (threshold : ℕ) :
    manager.execute (addOwner kit address threshold) =
      manager.addOwnerWithThreshold address.onChain (BitVec.ofNat 256 threshold) := by
  have htake : (addOwner kit address threshold).take 4 = [0x0d, 0x58, 0x2f, 0x13] :=
    take_invocation h.addOwner rfl _
  have hargument : ∀ i (hi : i < 2), OwnerManager.argument (addOwner kit address threshold) i =
      [address.toUInt, threshold][i] % 2 ^ 256 :=
    argument_invocation (by rw [h.addOwner]; rfl) [address.toUInt, threshold]
  have hne : ([0x0d, 0x58, 0x2f, 0x13] : Data) ≠ [0xe3, 0x18, 0xb5, 0x2b] := by decide
  simp only [OwnerManager.execute, htake, hne, ↓reduceIte, hargument 0 (by omega),
    hargument 1 (by omega), List.getElem_cons_zero, List.getElem_cons_succ, address_argument,
    number_argument]

theorem execute_removeOwner (h : OwnerSelectors kit) (prevOwner owner : Address) (threshold : ℕ) :
    manager.execute (removeOwner kit prevOwner owner threshold) =
      manager.removeOwner prevOwner.onChain owner.onChain (BitVec.ofNat 256 threshold) := by
  have htake : (removeOwner kit prevOwner owner threshold).take 4 = [0xf8, 0xdc, 0x5d, 0xd9] :=
    take_invocation h.removeOwner rfl _
  have hargument : ∀ i (hi : i < 3),
      OwnerManager.argument (removeOwner kit prevOwner owner threshold) i =
        [prevOwner.toUInt, owner.toUInt, threshold][i] % 2 ^ 256 :=
    argument_invocation (by rw [h.removeOwner]; rfl) [prevOwner.toUInt, owner.toUInt, threshold]
  have hne : ([0xf8, 0xdc, 0x5d, 0xd9] : Data) ≠ [0xe3, 0x18, 0xb5, 0x2b] := by decide
  have hne' : ([0xf8, 0xdc, 0x5d, 0xd9] : Data) ≠ [0x0d, 0x58, 0x2f, 0x13] := by decide
  simp only [OwnerManager.execute, htake, hne, hne', ↓reduceIte, hargument 0 (by omega),
    hargument 1 (by omega), hargument 2 (by omega), List.getElem_cons_zero,
    List.getElem_cons_succ, address_argument, number_argument]

theorem length_swapOwner (h : OwnerSelectors kit) (prevOwner old new : Address) :
    (swapOwner kit prevOwner old new).length = 100 := by
  simp [swapOwner, invocation, h.swapOwner]

theorem length_addOwner (h : OwnerSelectors kit) (address : Address) (threshold : ℕ) :
    (addOwner kit address threshold).length = 68 := by
  simp [addOwner, invocation, h.addOwner]

theorem length_removeOwner (h : OwnerSelectors kit) (prevOwner owner : Address) (threshold : ℕ) :
    (removeOwner kit prevOwner owner threshold).length = 100 := by
  simp [removeOwner, invocation, h.removeOwner]

/-- A contract has fewer owners than there are addresses. -/
theorem length_owners_lt (manager : OwnerManager) : manager.owners.length < 2 ^ 256 := by
  have hnodup : (manager.owners.map BitVec.toFin).Nodup :=
    manager.nodup.map fun _ _ => BitVec.toFin_inj.mp
  have hle := hnodup.length_le_card
  rw [List.length_map, Fintype.card_fin] at hle
  exact lt_of_le_of_lt hle (by norm_num)

/-- What the proxy reads of a contract's owners, if they are not too many for the
decoder. -/
theorem getOwners_of_call
    (h : services.eth_call contract (invocation services.kit "getOwners()" []) =
      some (encodeArrayUInt (manager.owners.map BitVec.toNat))) :
    getOwners services contract =
      if manager.owners.length * 32 < 2 ^ 63 then .ok (some (manager.owners.map Address.ofChain))
      else .error .integerOverflow := by
  have hwords : ∀ n ∈ manager.owners.map BitVec.toNat, n < 2 ^ 256 := by
    intro n hn
    obtain ⟨owner, -, rfl⟩ := List.mem_map.mp hn
    have := owner.isLt
    omega
  have hdecode := decodeArrayUInt_encodeArrayUInt hwords (by simpa using length_owners_lt manager)
  rw [List.length_map] at hdecode
  simp only [getOwners, h, decodeArrayAddress, hdecode]
  split
  · simp [Address.ofChain, Function.comp_def]
  · rfl

theorem getOwners_eq (h : Answers services contract manager) :
    getOwners services contract =
      if manager.owners.length * 32 < 2 ^ 63 then .ok (some (manager.owners.map Address.ofChain))
      else .error .integerOverflow :=
  getOwners_of_call h.getOwners

theorem getOwners_of_answers (h : Answers services contract manager) {owners : Option (List Address)}
    (hread : getOwners services contract = .ok owners) :
    owners = some (manager.owners.map Address.ofChain) := by
  rw [getOwners_eq h] at hread
  split at hread
  · cases hread
    rfl
  · cases hread

theorem getThreshold_of_call
    (h : services.eth_call contract (invocation services.kit "getThreshold()" []) =
      some (encodeUInt manager.threshold.toNat)) :
    getThreshold services contract = (Trapping.toInt manager.threshold.toNat).map some := by
  have hdecode : decodeUInt (encodeUInt manager.threshold.toNat) = manager.threshold.toNat := by
    have := decodeUInt_encodeUInt manager.threshold.toNat []
    rwa [List.append_nil, Nat.mod_eq_of_lt manager.threshold.isLt] at this
  simp only [getThreshold, h, hdecode]
  cases Trapping.toInt manager.threshold.toNat <;> rfl

theorem getThreshold_eq (h : Answers services contract manager) :
    getThreshold services contract = (Trapping.toInt manager.threshold.toNat).map some :=
  getThreshold_of_call h.getThreshold

theorem getThreshold_of_answers (h : Answers services contract manager) {threshold : Option ℕ}
    (hread : getThreshold services contract = .ok threshold) :
    threshold = some manager.threshold.toNat := by
  rw [getThreshold_eq h, Trapping.toInt] at hread
  split at hread
  · cases hread
    rfl
  · cases hread

end SafeOwnerManagerContractProxy

end SafeWallet
