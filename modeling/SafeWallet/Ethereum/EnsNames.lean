/-
# Names of the Ethereum Name Service

A name is looked up in the registry under its node, a hash over the labels of the name
from the last one to the first. The program splits off the first label and hashes the rest
first. It splits characters, and what combines with a dot makes another character of it:
`a` and a label that begins with an accent are one label to the program.

The address behind a name and the name behind an address are found in two steps: the node
of a converted name, and what registry and resolver answer for the node.
-/

import SafeWallet.Base.Splitting
import SafeWallet.DomainRegistry
import SafeWallet.Ethereum.AbiReading

namespace SafeWallet

open ContractProxy

/-! ## Nodes -/

namespace ENSAPIService

variable (characters : Characters) (hash : Data → Data)

/-- The label that `namehash(_:)` splits off. -/
def label (name : List Char) : List Char :=
  let parts := Splitting.split ['.'] 1 (characters.ofText name)
  if 0 < parts.length then (parts.head?.getD []).flatten else []

/-- The name that `namehash(_:)` goes on with. -/
def remainder (name : List Char) : List Char :=
  let parts := Splitting.split ['.'] 1 (characters.ofText name)
  if 1 < parts.length then (parts.getLast?.getD []).flatten else []

/-- What is left of a name is shorter, wherever its dots are. -/
theorem length_remainder_lt {name : List Char} (h : name ≠ []) :
    (remainder characters name).length < name.length := by
  have hpos := List.length_pos_iff.mpr h
  have hsplit : Splitting.split ['.'] 1 (characters.ofText name) =
      Splitting.splitFrom ['.'] 1 [] (characters.ofText name) := by
    rw [Splitting.split, if_neg (by simpa using Characters.ofText_ne_nil h)]
  obtain hnone | ⟨first, hone⟩ | ⟨first, rest, htwo, front, hfront, htext⟩ :=
    @Splitting.splitFrom_one_cases _ _ ['.'] [] (characters.ofText name)
  · simpa [remainder, hsplit, hnone] using hpos
  · simpa [remainder, hsplit, hone] using hpos
  · simpa [remainder, hsplit, htwo] using Characters.length_flatten_lt htext hfront

/-- `namehash(_:)`. -/
def namehash (name : List Char) : Data :=
  if _h : name = [] then List.replicate 32 0
  else hash (namehash (remainder characters name) ++
    hash (utf8 (String.ofList (label characters name))))
termination_by name.length
decreasing_by exact length_remainder_lt characters ‹_›

/-- The node of a list of labels, as the name service defines it. -/
def node : List (List Char) → Data
  | [] => List.replicate 32 0
  | label :: rest => hash (node rest ++ hash (utf8 (String.ofList label)))

/-- Labels without dots that do not combine with the dots between them. -/
structure Labels (labels : List (List Char)) : Prop where
  ne_nil : ∀ label ∈ labels, label ≠ []
  dot_notMem : ∀ label ∈ labels, ['.'] ∉ characters.ofText label
  apart : characters.ofText (Separated.joined ['.'] labels) =
    Separated.joined [['.']] (labels.map characters.ofText)

variable {characters hash} {first : List Char} {labels others : List (List Char)}

theorem flatten_joined (parts : List (List (List Char))) :
    (Separated.joined [['.']] parts).flatten =
      Separated.joined ['.'] (parts.map List.flatten) := by
  induction parts with
  | nil => rfl
  | cons first others ih =>
      cases others with
      | nil => rfl
      | cons second others =>
          simp only [Separated.joined, List.flatten_append, ih, List.map_cons]
          rfl

/-- Dividing the labels and joining the characters again gives the name. -/
theorem flatten_joined_ofText (labels : List (List Char)) :
    (Separated.joined [['.']] (labels.map characters.ofText)).flatten =
      Separated.joined ['.'] labels := by
  rw [flatten_joined, List.map_map]
  congr 1
  exact (List.map_congr_left fun label _ => characters.flatten_ofText label).trans
    (List.map_id labels)

theorem Labels.tail (h : Labels characters (first :: others)) : Labels characters others where
  ne_nil label hmem := h.ne_nil label (List.mem_cons_of_mem _ hmem)
  dot_notMem label hmem := h.dot_notMem label (List.mem_cons_of_mem _ hmem)
  apart := by
    cases others with
    | nil => exact characters.ofText_nil
    | cons second others =>
        have hapart : characters.ofText (Separated.joined ['.'] (first :: second :: others)) =
            (characters.ofText first ++ [['.']]) ++
              Separated.joined [['.']] ((second :: others).map characters.ofText) := by
          rw [h.apart, List.append_assoc]
          rfl
        have hback := characters.ofText_flatten hapart
        rwa [flatten_joined_ofText] at hback

/-- The node of a name is that of its labels. -/
theorem namehash_joined (h : Labels characters labels) :
    namehash characters hash (Separated.joined ['.'] labels) = node hash labels := by
  induction labels with
  | nil =>
      have hname : Separated.joined ['.'] ([] : List (List Char)) = [] := rfl
      rw [namehash, dif_pos hname]
      rfl
  | cons first others ih =>
      have hne (label) (hmem : label ∈ first :: others) : characters.ofText label ≠ [] :=
        Characters.ofText_ne_nil (h.ne_nil label hmem)
      have hsplit := Splitting.split_one_joined (hne first List.mem_cons_self)
        (h.dot_notMem first List.mem_cons_self) (others.map characters.ofText) fun label hmem => by
          obtain ⟨label, hlabel, rfl⟩ := List.mem_map.mp hmem
          exact hne label (List.mem_cons_of_mem _ hlabel)
      rw [← List.map_cons, ← h.apart] at hsplit
      have hname : Separated.joined ['.'] (first :: others) ≠ [] := by
        intro hnil
        rw [hnil, characters.ofText_nil] at hsplit
        cases hsplit
      have hlabel : label characters (Separated.joined ['.'] (first :: others)) = first := by
        simp [label, hsplit, characters.flatten_ofText]
      have hrest : remainder characters (Separated.joined ['.'] (first :: others)) =
          Separated.joined ['.'] others := by
        have hjoined := @flatten_joined_ofText characters others
        rw [remainder, hsplit]
        cases others with
        | nil => rfl
        | cons second others => simpa using hjoined
      rw [namehash, dif_neg hname, hlabel, hrest, ih h.tail, node]

/-- Labels of ASCII do not combine with anything. -/
theorem labels_of_ascii (hne : ∀ label ∈ labels, label ≠ []) (hdot : ∀ label ∈ labels, '.' ∉ label)
    (hascii : ∀ label ∈ labels, ∀ c ∈ label, c.toNat < 128 ∧ c ≠ '\r') :
    Labels characters labels := by
  have hdivided (label) (hmem : label ∈ labels) :
      characters.ofText label = label.map fun c => [c] := characters.ofText_ascii (hascii label hmem)
  have hjoined (labels : List (List Char)) : Separated.joined [['.']]
      (labels.map fun label => label.map fun c => [c]) =
        (Separated.joined ['.'] labels).map fun c => [c] := by
    induction labels with
    | nil => rfl
    | cons first others ih => cases others <;> simp_all [Separated.joined]
  refine ⟨hne, fun label hmem hin => ?_, ?_⟩
  · rw [hdivided label hmem] at hin
    exact hdot label hmem (by simpa using hin)
  · rw [List.map_congr_left hdivided, hjoined]
    refine characters.ofText_ascii fun c hmem => ?_
    rcases Separated.mem_joined hmem with hsep | ⟨label, hlabel, hc⟩
    · cases List.mem_singleton.mp hsep
      decide
    · exact hascii label hlabel c hc

/-! ## Resolving -/

/-- `IDN`, which wraps a library: names are converted or rejected with a code. -/
structure IDN where
  /-- `utf8ToASCII(_:useSTD3ASCIIRules: true)`. -/
  utf8ToASCII : String → Except ℤ String
  /-- `asciiToUTF8(_:)`. -/
  asciiToUTF8 : String → Except ℤ String
  /-- What is converted to ASCII is ASCII, where each character stands for itself. -/
  isASCII : ∀ {name converted}, utf8ToASCII name = .ok converted →
    ∀ c ∈ converted.toList, c.toNat < 128

/-- What resolving throws: the errors of the conversion and of the node, and
`ENSAPIServiceError`. -/
inductive ENSError
  | idn (code : ℤ)
  | node
  | resolverNotFound
  | addressResolutionNotSupported
  | addressNotFound
  | resolvedNameNotMatchingOriginalAddress
  deriving DecidableEq, Repr

/-- A call that throws or traps. -/
abbrev Resolving (α : Type) := ExceptT ENSError Trapping α

/-- `encodeFixedBytes(_:)`. -/
def encodeFixedBytes (value : Data) : Data := (Data.rightPadded 32 value).take 32

/-- `invoke(_:_:)` with one argument of fixed size. -/
def invoke (services : Services) (contract : Address) (selector : String) (argument : Data) :
    Resolving Data :=
  match services.eth_call contract
    (invocation services.kit selector [encodeFixedBytes argument]) with
  | none => throw .node
  | some value => return value

/-- `ENSRegistryContractProxy.resolver(node:)`. -/
def resolver (services : Services) (registry : Address) (node : Data) : Resolving Address := do
  return decodeAddress (← invoke services registry "resolver(bytes32)" node)

/-- `ENSResolverContractProxy.supportsInterface(_:)`. -/
def supportsInterface (services : Services) (contract : Address) (selector : String) :
    Resolving Bool := do
  let value ← invoke services contract "supportsInterface(bytes4)" (method services.kit selector)
  return decodeUInt value ≠ 0

/-- `ENSResolverContractProxy.address(node:)`. -/
def resolverAddress (services : Services) (contract : Address) (node : Data) :
    Resolving Address := do
  return decodeAddress (← invoke services contract "addr(bytes32)" node)

/-- `ENSReverseResolverContractProxy.name(node:)`. -/
def resolverName (services : Services) (contract : Address) (node : Data) :
    Resolving (Option String) := do
  liftM (decodeString (← invoke services contract "name(bytes32)" node))

/-- A conversion that throws its code. -/
def converted (result : Except ℤ String) : Resolving String :=
  match result with
  | .error code => throw (.idn code)
  | .ok name => return name

section

variable (characters : Characters) (services : Services) (idn : IDN) (registryAddress : Address)

/-- `namehash(_:)` of a converted name. -/
def nameNode (name : String) : Data :=
  namehash characters services.kit.hashSHA3_256 name.toList

/-- The node of labels in the registry. -/
def registryNode (labels : List String) : Data :=
  node services.kit.hashSHA3_256 (labels.map String.toList)

/-- `address(for:)` from the node on. -/
def addressAt (node : Data) : Resolving Address := do
  let resolverContract ← resolver services registryAddress node
  if resolverContract = Address.zero then
    throw .resolverNotFound
  if !(← supportsInterface services resolverContract "addr(bytes32)") then
    throw .addressResolutionNotSupported
  let resolvedAddress ← resolverAddress services resolverContract node
  if resolvedAddress = Address.zero then
    throw .addressNotFound
  liftM (Trapping.unwrap (services.kit.formatted resolvedAddress.value))

/-- `address(for:)`. -/
def address (name : String) : Resolving Address := do
  let normalizedName ← converted (idn.utf8ToASCII name)
  addressAt services registryAddress (nameNode characters services normalizedName)

/-- `name(for:)` from the node on. -/
def nameAt (address : Address) (node : Data) : Resolving (Option String) := do
  let resolverContract ← resolver services registryAddress node
  if resolverContract = Address.zero then
    throw .resolverNotFound
  match ← resolverName services resolverContract node with
  | none => return none
  | some resolvedASCIIName =>
    let resolvedName ← converted (idn.asciiToUTF8 resolvedASCIIName)
    let resolvedAddress ← ENSAPIService.address characters services idn registryAddress resolvedName
    if address.normalized ≠ resolvedAddress.normalized then
      throw .resolvedNameNotMatchingOriginalAddress
    return some resolvedName

/-- The digits of an address as a label. -/
def addressString (address : Address) : String := String.ofList (Data.toHexString address.data)

/-- The name that is converted for an address. -/
def reverseName (address : Address) : String := addressString address ++ ".addr.reverse"

/-- `name(for:)`. -/
def name (address : Address) : Resolving (Option String) := do
  let normalizedName ← converted (idn.utf8ToASCII (reverseName address))
  nameAt characters services idn registryAddress address (nameNode characters services normalizedName)

/-! ### Queries -/

variable {characters services idn registryAddress}

/-- A hash is an argument as it is. -/
theorem encodeFixedBytes_of_length {value : Data} (h : value.length = 32) :
    encodeFixedBytes value = value := by
  rw [encodeFixedBytes, Data.rightPadded, if_pos h.ge, List.take_of_length_le h.le]

theorem length_node {hash : Data → Data} (hhash : ∀ data, (hash data).length = 32)
    (labels : List (List Char)) : (node hash labels).length = 32 := by
  cases labels with
  | nil => simp [node]
  | cons label rest => exact hhash _

/-- The steps of a call that returns have returned. -/
theorem bind_eq_pure_iff {α β : Type} {x : Resolving α} {f : α → Resolving β} {b : β} :
    x >>= f = pure b ↔ ∃ a, x = pure a ∧ f a = pure b := by
  constructor
  · intro h
    obtain trap | error | a := x
    · cases h
    · cases h
    · exact ⟨a, rfl, h⟩
  · rintro ⟨a, rfl, h⟩
    rw [pure_bind, h]

theorem pure_eq_pure_iff {α : Type} {a b : α} : (pure a : Resolving α) = pure b ↔ a = b :=
  ⟨fun h => by cases h; rfl, fun h => by rw [h]⟩

theorem liftM_eq_pure_iff {α : Type} {x : Trapping α} {a : α} :
    (liftM x : Resolving α) = pure a ↔ x = .ok a := by
  constructor
  · intro h
    cases x with
    | error trap => cases h
    | ok b =>
        cases h
        rfl
  · rintro rfl
    rfl

theorem invoke_eq_pure_iff {contract : Address} {selector : String} {argument value : Data} :
    invoke services contract selector argument = pure value ↔
      services.eth_call contract
        (method services.kit selector ++ encodeFixedBytes argument) = some value := by
  rw [invoke, invocation, List.flatten_singleton]
  cases services.eth_call contract (method services.kit selector ++ encodeFixedBytes argument) with
  | none => exact iff_of_false (fun h => by cases h) (fun h => by cases h)
  | some answer => rw [pure_eq_pure_iff, Option.some.injEq]

/-- The name of labels in a text. -/
def dotted (labels : List String) : String :=
  String.ofList (Separated.joined ['.'] (labels.map String.toList))

theorem nameNode_dotted {labels : List String}
    (h : Labels characters (labels.map String.toList)) :
    nameNode characters services (dotted labels) = registryNode services labels := by
  rw [nameNode, dotted, String.toList_ofList, registryNode, namehash_joined h]

/-- The labels of a converted name do not combine, unless there are line breaks in them. -/
theorem labels_of_converted {name : String} {labels : List String}
    (h : idn.utf8ToASCII name = .ok (dotted labels))
    (hlabels : ∀ label ∈ labels, label ≠ "" ∧ '.' ∉ label.toList ∧ '\r' ∉ label.toList) :
    Labels characters (labels.map String.toList) := by
  have hascii := idn.isASCII h
  rw [dotted, String.toList_ofList] at hascii
  refine labels_of_ascii (fun text hmem => ?_) (fun text hmem => ?_) (fun text hmem c hc => ?_)
  all_goals obtain ⟨label, hlabel, rfl⟩ := List.mem_map.mp hmem
  · exact fun hnil => (hlabels label hlabel).1 (String.toList_injective hnil)
  · exact (hlabels label hlabel).2.1
  · exact ⟨hascii c (Separated.mem_joined_of_mem hmem hc),
      fun hc' => (hlabels label hlabel).2.2 (hc' ▸ hc)⟩

/-- The name for an address has its digits as the first of three labels. -/
theorem reverseName_eq (address : Address) :
    reverseName address = dotted [addressString address, "addr", "reverse"] := by
  apply String.toList_injective
  simp [reverseName, dotted, Separated.joined]

/-- The digits are a label. -/
theorem addressString_label {address : Address} (h : address.data ≠ []) :
    ∀ label ∈ [addressString address, "addr", "reverse"],
      label ≠ "" ∧ '.' ∉ label.toList ∧ '\r' ∉ label.toList := by
  have hforeign (c : Char) (hc : (digitValue c).isSome = false) : c ∉ Data.toHexString address.data :=
    fun hmem => absurd (Data.isHex_toHexString address.data c hmem) (by simp [hc])
  have hlength := Data.length_toHexString address.data
  have hpos := List.length_pos_iff.mpr h
  have hdigits : addressString address ≠ "" := by
    intro hnil
    have htext : Data.toHexString address.data = [] := by simpa [addressString] using hnil
    rw [htext, List.length_nil] at hlength
    omega
  have hdot := hforeign '.' (by decide)
  have hbreak := hforeign '\r' (by decide)
  simpa [addressString, hdot, hbreak] using hdigits

/-! ### What is asked for -/

/-- The registry answers a resolver for a node. -/
def ResolverAnswered (services : Services) (registryAddress : Address) (node : Data)
    (resolverContract : Address) : Prop :=
  resolverContract ≠ Address.zero ∧
    ∃ value, decodeAddress value = resolverContract ∧ services.eth_call registryAddress
      (method services.kit "resolver(bytes32)" ++ node) = some value

/-- The resolver that the registry answers for a node knows addresses, and answers one for the
node. -/
def AddressAnswered (services : Services) (registryAddress : Address) (node : Data)
    (found : Address) : Prop :=
  ∃ resolverContract, ResolverAnswered services registryAddress node resolverContract ∧
    (∃ value, decodeUInt value ≠ 0 ∧ services.eth_call resolverContract
      (method services.kit "supportsInterface(bytes4)" ++
        encodeFixedBytes (method services.kit "addr(bytes32)")) = some value) ∧
    ∃ value, decodeAddress value ≠ Address.zero ∧
      services.kit.formatted (decodeAddress value).value = some found ∧
      services.eth_call resolverContract
        (method services.kit "addr(bytes32)" ++ node) = some value

/-- The resolver that the registry answers for a node answers a name for it. -/
def NameAnswered (services : Services) (registryAddress : Address) (node : Data)
    (name : String) : Prop :=
  ∃ resolverContract, ResolverAnswered services registryAddress node resolverContract ∧
    ∃ value, decodeString value = .ok (some name) ∧
      services.eth_call resolverContract
        (method services.kit "name(bytes32)" ++ node) = some value

variable {node : Data} {address found : Address} {resolvedName : String}

theorem resolver_eq_pure_iff (hnode : node.length = 32) {resolverContract : Address} :
    resolver services registryAddress node = pure resolverContract ↔
      ∃ value, decodeAddress value = resolverContract ∧ services.eth_call registryAddress
        (method services.kit "resolver(bytes32)" ++ node) = some value := by
  simp only [resolver, bind_eq_pure_iff, invoke_eq_pure_iff, encodeFixedBytes_of_length hnode,
    pure_eq_pure_iff]
  exact exists_congr fun _ => and_comm

/-- A guard passes when its condition does not hold. -/
theorem guard_eq_pure_iff {α β : Type} {condition : Prop} [Decidable condition] {error : ENSError}
    {next : β → Resolving α} {rest : Resolving α} {a : α} :
    (if condition then (throw error : Resolving β) >>= next else rest) = pure a ↔
      ¬ condition ∧ rest = pure a := by
  by_cases h : condition
  · rw [if_pos h]
    exact iff_of_false (fun heq => by cases heq) fun hnot => hnot.1 h
  · rw [if_neg h, and_iff_right h]

theorem supportsInterface_eq_pure_iff {contract : Address} {selector : String} {supported : Bool} :
    supportsInterface services contract selector = pure supported ↔
      ∃ value, decide (decodeUInt value ≠ 0) = supported ∧ services.eth_call contract
        (method services.kit "supportsInterface(bytes4)" ++
          encodeFixedBytes (method services.kit selector)) = some value := by
  simp only [supportsInterface, bind_eq_pure_iff, invoke_eq_pure_iff, pure_eq_pure_iff]
  exact exists_congr fun _ => and_comm

theorem resolverAddress_eq_pure_iff (hnode : node.length = 32) {contract resolved : Address} :
    resolverAddress services contract node = pure resolved ↔
      ∃ value, decodeAddress value = resolved ∧ services.eth_call contract
        (method services.kit "addr(bytes32)" ++ node) = some value := by
  simp only [resolverAddress, bind_eq_pure_iff, invoke_eq_pure_iff,
    encodeFixedBytes_of_length hnode, pure_eq_pure_iff]
  exact exists_congr fun _ => and_comm

theorem resolverName_eq_pure_iff (hnode : node.length = 32) {contract : Address}
    {name : Option String} :
    resolverName services contract node = pure name ↔
      ∃ value, decodeString value = .ok name ∧ services.eth_call contract
        (method services.kit "name(bytes32)" ++ node) = some value := by
  simp only [resolverName, bind_eq_pure_iff, invoke_eq_pure_iff,
    encodeFixedBytes_of_length hnode, liftM_eq_pure_iff]
  exact exists_congr fun _ => and_comm

theorem converted_eq_pure_iff {result : Except ℤ String} {name : String} :
    converted result = pure name ↔ result = .ok name := by
  cases result with
  | error code => exact iff_of_false (fun h => by cases h) (fun h => by cases h)
  | ok name => rw [converted, pure_eq_pure_iff, Except.ok.injEq]

/-- An address is found at a node exactly if registry and resolver answer it. -/
theorem addressAt_eq_pure_iff (hnode : node.length = 32) :
    addressAt services registryAddress node = pure found ↔
      AddressAnswered services registryAddress node found := by
  simp only [addressAt, bind_eq_pure_iff, resolver_eq_pure_iff hnode, guard_eq_pure_iff,
    supportsInterface_eq_pure_iff, resolverAddress_eq_pure_iff hnode, liftM_eq_pure_iff,
    Trapping.unwrap_eq_ok_iff]
  constructor
  · rintro ⟨resolverContract, hresolver, hne, supported, ⟨support, hsupport, hcall⟩, hsupported,
      resolved, ⟨value, rfl, hvalue⟩, hresolved, hfound⟩
    refine ⟨resolverContract, ⟨hne, hresolver⟩, ⟨support, ?_, hcall⟩, value, hresolved, hfound,
      hvalue⟩
    subst hsupport
    simpa using hsupported
  · rintro ⟨resolverContract, ⟨hne, hresolver⟩, ⟨support, hsupport, hcall⟩, value, hresolved,
      hfound, hvalue⟩
    exact ⟨resolverContract, hresolver, hne, true, ⟨support, by simpa using hsupport, hcall⟩,
      by simp, _, ⟨value, rfl, hvalue⟩, hresolved, hfound⟩

/-- A name is found at a node exactly if the resolver answers it and it leads back to the
address. -/
theorem nameAt_eq_pure_iff (hnode : node.length = 32) :
    nameAt characters services idn registryAddress address node = pure (some resolvedName) ↔
      ∃ asciiName, NameAnswered services registryAddress node asciiName ∧
        idn.asciiToUTF8 asciiName = .ok resolvedName ∧
        ∃ resolvedAddress, ENSAPIService.address characters services idn registryAddress
            resolvedName = pure resolvedAddress ∧
          address.normalized = resolvedAddress.normalized := by
  simp only [nameAt, bind_eq_pure_iff, resolver_eq_pure_iff hnode, guard_eq_pure_iff,
    resolverName_eq_pure_iff hnode]
  constructor
  · rintro ⟨resolverContract, hresolver, hne, name, ⟨value, hdecode, hvalue⟩, hrest⟩
    cases name with
    | none => cases hrest
    | some asciiName =>
        simp only [bind_eq_pure_iff, converted_eq_pure_iff, guard_eq_pure_iff, pure_eq_pure_iff,
          Option.some.injEq, not_not] at hrest
        obtain ⟨resolvedName, hconverted, resolved, hresolved, hsame, rfl⟩ := hrest
        exact ⟨asciiName, ⟨resolverContract, ⟨hne, hresolver⟩, value, hdecode, hvalue⟩, hconverted,
          resolved, hresolved, hsame⟩
  · rintro ⟨asciiName, ⟨resolverContract, ⟨hne, hresolver⟩, value, hdecode, hvalue⟩, hconverted,
      resolved, hresolved, hsame⟩
    refine ⟨resolverContract, hresolver, hne, some asciiName, ⟨value, hdecode, hvalue⟩, ?_⟩
    simp only [bind_eq_pure_iff, converted_eq_pure_iff, guard_eq_pure_iff, pure_eq_pure_iff,
      Option.some.injEq, not_not]
    exact ⟨resolvedName, hconverted, resolved, hresolved, hsame, rfl⟩

end

/-- Names are looked up under the nodes of the name service. Hashing goes on with a shorter
name each time, wherever the dots are, and labels that do not combine with the dots are hashed
into each other from the last one on. So an address is found for a converted name exactly if it
is what registry and resolver answer for the node of its labels, and a name is found for an
address exactly if it is what they answer for the node of the reverse name. -/
theorem registry_asked_for_nodes (characters : Characters) (hash : Data → Data)
    (services : Services) (idn : IDN) (registryAddress : Address)
    (hhash : ∀ data, (services.kit.hashSHA3_256 data).length = 32) :
    (∀ name : List Char, name ≠ [] → (remainder characters name).length < name.length) ∧
    (∀ labels, Labels characters labels →
      namehash characters hash (Separated.joined ['.'] labels) = node hash labels) ∧
    (∀ name labels,
      (∀ label ∈ labels, label ≠ "" ∧ '.' ∉ label.toList ∧ '\r' ∉ label.toList) →
      idn.utf8ToASCII name = .ok (dotted labels) → ∀ found,
        (address characters services idn registryAddress name = pure found ↔
          AddressAnswered services registryAddress (registryNode services labels) found)) ∧
    (∀ address : Address, address.data ≠ [] →
      idn.utf8ToASCII (reverseName address) = .ok (reverseName address) → ∀ found,
        (name characters services idn registryAddress address = pure (some found) ↔
          ∃ asciiName, NameAnswered services registryAddress
              (registryNode services [addressString address, "addr", "reverse"]) asciiName ∧
            idn.asciiToUTF8 asciiName = .ok found ∧
            ∃ resolved, ENSAPIService.address characters services idn registryAddress found =
                pure resolved ∧ address.normalized = resolved.normalized)) := by
  refine ⟨fun name h => length_remainder_lt characters h, fun labels h => namehash_joined h,
    fun name labels h hidn found => ?_, fun address h hidn found => ?_⟩
  · rw [address, hidn, converted, pure_bind, nameNode_dotted (labels_of_converted hidn h)]
    exact addressAt_eq_pure_iff (length_node hhash _)
  · have hlabels := @labels_of_converted characters _ _ _ (hidn.trans (by rw [reverseName_eq]))
      (addressString_label h)
    rw [name, hidn, converted, pure_bind, reverseName_eq, nameNode_dotted hlabels]
    exact nameAt_eq_pure_iff (length_node hhash _)

/-! ### A name, and a name that combines -/

/-- A conversion of names that need none: ASCII without capitals. -/
def plainIDN : IDN where
  utf8ToASCII name :=
    if name.toList.all fun c => c.toNat < 128 && c.toLower = c then .ok name else .error (-304)
  asciiToUTF8 name := .ok name
  isASCII h c hmem := by
    split at h
    · rename_i hall
      cases h
      have hc := List.all_eq_true.mp hall c hmem
      simp only [Bool.and_eq_true, decide_eq_true_eq] at hc
      exact hc.1
    · cases h

/-- Of the scalars only the combining diacritical marks combine. -/
def accented : Characters :=
  .ofCombining (fun c => 0x300 ≤ c.toNat && c.toNat ≤ 0x36f) fun c h => by
    simp only [Bool.and_eq_false_iff, decide_eq_false_iff_not]
    exact .inl (by omega)

/-- The Keccak hashes on the way to the nodes of `foo.eth` and of the reverse name of an address,
and those of the functions that are called. -/
def nodeHashes : List (Data × ℕ) :=
  let eth := 0x4f5b812789fc606be1b3b16908db13fc7a9adf7ca72641f84d75b47069d3d7f0
  let foo := 0x41b1a0649752af1b28b3dc29a1556eee781e4a4c3a1f7f53f90fa834de098c4d
  let ethNode := 0x93cdeb708b7545dc668eb9280176169d1c33cfd8ed6f04690a0bcc88a93fc4ae
  let reverse := 0xdec08c9dbbdd0890e300eb5062089b2d4b1c40e3673bbccb5423f7b37dcf9a9c
  let addr := 0xe5e14487b78f85faa6e1808e89246cf57dd34831548ff2e6097380d98db2504a
  let digits := 0x535bdae9bb214b3cc583b53384464999f2f7f48625f160728c63e73e766ff71e
  let reverseNode := 0xa097f6721ce401e757d1223a763fef49b8b5f90bb18567ddb86fd205dff71d34
  let addrNode := 0x91d1777781884d03a6757a803996e38de2a42967fb37eeaca72729271025a9e2
  [(utf8 "eth", eth), (utf8 "foo", foo), (utf8 "reverse", reverse), (utf8 "addr", addr),
    (utf8 "d8da6bf26964af9d7eed9e03e53415d37aa96045", digits),
    (encodeUInt 0 ++ encodeUInt eth, ethNode),
    (encodeUInt ethNode ++ encodeUInt foo,
      0xde9b09fd7c5f901e23a3f19fecc54828e9c848539801e86591bd9801b019f84f),
    (encodeUInt 0 ++ encodeUInt reverse, reverseNode),
    (encodeUInt reverseNode ++ encodeUInt addr, addrNode),
    (encodeUInt addrNode ++ encodeUInt digits,
      0x7aef81fbd30c83431369026d62ee533af8b69f246b63d75b40fe223346e6fa9a),
    (ascii "resolver(bytes32)", 0x0178b8bf26f498274339d2f64571607d2a9d42b5d4ffcfff300bc22919aa9445),
    (ascii "supportsInterface(bytes4)",
      0x01ffc9a7a5cef8baa21ed3c5c0d7e23accb804b619e9333b597f47a0d84076e2),
    (ascii "addr(bytes32)", 0x3b3b57de213591bb50e06975ea011e4c8c4b3e6de4009450c1a9e55f66e4bfa4),
    (ascii "name(bytes32)", 0x691f3431f2842c92fa6424cd03b8e1f195527167f7a40f905915e5773a06a875)]

/-- The registry, a resolver, and the address that `foo.eth` belongs to. -/
def ensRegistry : Address := .ofUInt 0x314159265dd8dbb310642f98f50c066173c1259b
def publicResolver : Address := .ofUInt 0x4976fb03c32e5b8cfe2b6ccb31c09ba78ebaba41
def fooOwner : Address := .ofUInt 0xd8da6bf26964af9d7eed9e03e53415d37aa96045

/-- A node on which the name and the reverse name are registered. -/
def ensServices : Services :=
  let fooNode := encodeUInt 0xde9b09fd7c5f901e23a3f19fecc54828e9c848539801e86591bd9801b019f84f
  let reverseNode := encodeUInt 0x7aef81fbd30c83431369026d62ee533af8b69f246b63d75b40fe223346e6fa9a
  { Services.offline (.ofHashes nodeHashes) ⟨Address.zero, [], []⟩ with
    eth_call := fun contract data =>
      if contract = ensRegistry ∧
          (data = [0x01, 0x78, 0xb8, 0xbf] ++ fooNode ∨
            data = [0x01, 0x78, 0xb8, 0xbf] ++ reverseNode) then
        some (encodeAddress publicResolver)
      else if contract = publicResolver ∧
          data = [0x01, 0xff, 0xc9, 0xa7] ++ Data.rightPadded 32 [0x3b, 0x3b, 0x57, 0xde] then
        some (encodeUInt 1)
      else if contract = publicResolver ∧ data = [0x3b, 0x3b, 0x57, 0xde] ++ fooNode then
        some (encodeAddress fooOwner)
      else if contract = publicResolver ∧ data = [0x69, 0x1f, 0x34, 0x31] ++ reverseNode then
        some (encodeUInt 32 ++ encodeBytes (utf8 "foo.eth"))
      else none }

theorem resolverAnswered_foo : ResolverAnswered ensServices ensRegistry
    (registryNode ensServices ["foo", "eth"]) publicResolver :=
  ⟨by decide +kernel, encodeAddress publicResolver, by decide +kernel, by decide +kernel⟩

theorem addressAnswered_foo : AddressAnswered ensServices ensRegistry
    (registryNode ensServices ["foo", "eth"]) (ensServices.kit.checksummed fooOwner.data) :=
  ⟨publicResolver, resolverAnswered_foo,
    ⟨encodeUInt 1, by decide +kernel, by decide +kernel⟩,
    encodeAddress fooOwner, by decide +kernel, by decide +kernel, by decide +kernel⟩

theorem nameAnswered_foo : NameAnswered ensServices ensRegistry
    (registryNode ensServices [addressString fooOwner, "addr", "reverse"]) "foo.eth" :=
  ⟨publicResolver, ⟨by decide +kernel, encodeAddress publicResolver, by decide +kernel,
    by decide +kernel⟩, encodeUInt 32 ++ encodeBytes (utf8 "foo.eth"), by decide +kernel,
    by decide +kernel⟩

theorem normalized_fooOwner :
    fooOwner.normalized = (ensServices.kit.checksummed fooOwner.data).normalized := by
  have hwf : fooOwner.WellFormed := (Address.ofUInt_wellFormed _).1
  obtain ⟨hchecksummed, hvalue⟩ := ensServices.kit.checksummed_spec hwf.data_spec.1
  exact (Address.normalized_eq_iff hwf hchecksummed).mpr hvalue.symm

/-- The name leads to the address and the address to the name. -/
theorem registry_asked_for_nodes_foo :
    address accented ensServices plainIDN ensRegistry "foo.eth" =
      pure (ensServices.kit.checksummed fooOwner.data) ∧
    name accented ensServices plainIDN ensRegistry fooOwner = pure (some "foo.eth") := by
  obtain ⟨-, -, haddress, hname⟩ := registry_asked_for_nodes accented
    ensServices.kit.hashSHA3_256 ensServices plainIDN ensRegistry (EthereumKit.length_ofHashes _)
  have hfoo := (haddress "foo.eth" ["foo", "eth"] (by decide) (by decide +kernel) _).mpr
    addressAnswered_foo
  exact ⟨hfoo, (hname fooOwner (by decide +kernel) (by decide +kernel) _).mpr
    ⟨"foo.eth", nameAnswered_foo, rfl, _, hfoo, normalized_fooOwner⟩⟩

/-- The Keccak hashes on the way to the node of a name of one label, and to that of two. -/
def accentHashes : List (Data × ℕ) :=
  [(utf8 "a.\u0301b", 0x79e7dd4095cdde469d421b6faf6a88ca3e0a03d59039509b2daf568d6872ef36),
    (encodeUInt 0 ++ encodeUInt 0x79e7dd4095cdde469d421b6faf6a88ca3e0a03d59039509b2daf568d6872ef36,
      0xc4c520a70be0fea3f74c04c188c4c8c367d6cad7c3f82b8280c203d0aa8a7d85),
    (utf8 "\u0301b", 0x25e3ef31883e1af0fe45d3caae255f36247a142a97aa020e67ce605eae498bd7),
    (encodeUInt 0 ++ encodeUInt 0x25e3ef31883e1af0fe45d3caae255f36247a142a97aa020e67ce605eae498bd7,
      0x272f41be60cc37fe01f0c68f6fcdcfdd85c0b59f68002fa0274d6b73bedfde1a),
    (utf8 "a", 0x3ac225168df54212a25c1c01fd35bebfea408fdac2e31ddd6f80a4bbf9a5f1cb),
    (encodeUInt 0x272f41be60cc37fe01f0c68f6fcdcfdd85c0b59f68002fa0274d6b73bedfde1a ++
        encodeUInt 0x3ac225168df54212a25c1c01fd35bebfea408fdac2e31ddd6f80a4bbf9a5f1cb,
      0xa9ad7c2b9f2a942232a16834734707cbd7ecf2a785811668ec1df080576f8356)]

/-- Labels without dots can combine with the dots. The accent at the head of the second label
makes one label of the two. -/
theorem accent_joins_labels :
    ¬ ∀ (characters : Characters) (hash : Data → Data), (∀ data, (hash data).length = 32) →
      ∀ labels : List (List Char),
        (∀ label ∈ labels, label ≠ [] ∧ '.' ∉ label) →
        namehash characters hash (Separated.joined ['.'] labels) = node hash labels := by
  intro h
  have hnode := h accented (EthereumKit.ofHashes accentHashes).hashSHA3_256
    (EthereumKit.length_ofHashes accentHashes) ["a".toList, "\u0301b".toList] (by decide +kernel)
  have hjoined : Separated.joined ['.'] ["a".toList, "\u0301b".toList] =
      "a.\u0301b".toList := by decide +kernel
  have hlabel : label accented "a.\u0301b".toList = "a.\u0301b".toList := by decide +kernel
  have hrest : remainder accented "a.\u0301b".toList = [] := by decide +kernel
  rw [hjoined, namehash, dif_neg (by decide), hlabel, hrest, namehash, dif_pos rfl] at hnode
  revert hnode
  decide +kernel

end ENSAPIService

end SafeWallet
