/-
# Rows of the transaction repository

`DBTransactionRepository` writes a transaction into 23 columns and makes it again from a
new draft: the fields are changed one by one, the status is replayed from the draft with
the operations of the status machine, and at last the dates are set that are stored. What
the status machine asserts must therefore be in the columns, and a date that is not stored
is the one the replay leaves.
-/

import Mathlib.Data.List.ReduceOption
import Mathlib.Data.List.TakeWhile
import SafeWallet.Repositories.TokenText
import SafeWallet.Transaction.TransactionSync

namespace SafeWallet

/-! ## Raw values -/

/-- `TransactionType.rawValue`. -/
def TransactionType.rawValue : TransactionType → ℕ
  | .transfer => 0
  | .walletRecovery => 1
  | .replaceRecoveryPhrase => 2
  | .replaceTwoFAWithAuthenticator => 3
  | .connectAuthenticator => 4
  | .disconnectAuthenticator => 5
  | .contractUpgrade => 6
  | .replaceTwoFAWithStatusKeycard => 7
  | .connectStatusKeycard => 8
  | .disconnectStatusKeycard => 9
  | .batched => 10

/-- `TransactionType(rawValue:)`. -/
def TransactionType.ofRawValue (rawValue : ℕ) : Option TransactionType :=
  [.transfer, .walletRecovery, .replaceRecoveryPhrase, .replaceTwoFAWithAuthenticator,
    .connectAuthenticator, .disconnectAuthenticator, .contractUpgrade,
    .replaceTwoFAWithStatusKeycard, .connectStatusKeycard, .disconnectStatusKeycard,
    .batched].find? fun type => type.rawValue = rawValue

/-- `TransactionStatus.Code.rawValue`. -/
def TransactionStatus.rawValue : TransactionStatus → ℕ
  | .draft => 0
  | .signing => 1
  | .pending => 2
  | .rejected => 3
  | .failed => 4
  | .success => 5

/-- `TransactionStatus.Code(rawValue:)`. -/
def TransactionStatus.ofRawValue (rawValue : ℕ) : Option TransactionStatus :=
  [.draft, .signing, .pending, .rejected, .failed, .success].find? fun status =>
    status.rawValue = rawValue

/-- `WalletOperation(rawValue:)`. -/
def WalletOperation.ofRawValue (rawValue : ℕ) : Option WalletOperation :=
  [.call, .delegateCall, .create].find? fun operation => operation.rawValue = rawValue

@[simp]
theorem TransactionType.ofRawValue_rawValue (type : TransactionType) :
    ofRawValue type.rawValue = some type := by
  cases type <;> rfl

@[simp]
theorem TransactionStatus.ofRawValue_rawValue (status : TransactionStatus) :
    ofRawValue status.rawValue = some status := by
  cases status <;> rfl

@[simp]
theorem WalletOperation.ofRawValue_rawValue (operation : WalletOperation) :
    ofRawValue operation.rawValue = some operation := by
  cases operation <;> rfl

/-! ## Columns -/

namespace Column

/-- `nextString()`: a text is a C string and ends at its first NUL. -/
def nextString (column : List Char) : List Char := column.takeWhile (· ≠ '\x00')

/-- `nextData()`: there is no pointer to an empty blob. -/
def nextData (column : Option Data) : Option Data := column.filter (· ≠ [])

end Column

/-- The columns of `tbl_transactions`. A date is stored as the shortest text of its interval,
which is read as the same interval. -/
structure TransactionRow where
  id : TransactionID
  accountID : AccountID
  transactionType : ℕ
  transactionStatus : ℕ
  sender : Option (List Char)
  recipient : Option (List Char)
  amount : Option (List Char)
  fee : Option (List Char)
  signatures : List Char
  createdDate : Option Date
  updatedDate : Option Date
  rejectedDate : Option Date
  submissionDate : Option Date
  processedDate : Option Date
  transactionHash : Option (List Char)
  feeEstimateGas : Option (List Char)
  feeEstimateDataGas : Option (List Char)
  feeEstimateOperationalGas : Option (List Char)
  feeEstimateGasPrice : Option (List Char)
  data : Option Data
  operation : Option ℕ
  nonce : Option (List Char)
  hash : Option Data
  deriving DecidableEq, Repr

namespace DBTransactionRepository

/-! ## Writing -/

/-- A signature as it is stored. -/
def serializedSignature (signature : Signature) : List Char :=
  Separated.joined [','] [signature.address.value.toList, signature.data.toHexString]

/-- `serialized(signatures:)`. -/
def serializedSignatures (signatures : List Signature) : List Char :=
  Separated.joined [';'] (signatures.map serializedSignature)

/-- The bindings of `save(_:)`. -/
def row (tx : Transaction) : TransactionRow where
  id := tx.id
  accountID := tx.accountID
  transactionType := tx.type.rawValue
  transactionStatus := tx.status.rawValue
  sender := tx.sender.map fun a => a.value.toList
  recipient := tx.recipient.map fun a => a.value.toList
  amount := tx.amount.map TokenAmount.serialized
  fee := tx.fee.map TokenAmount.serialized
  signatures := serializedSignatures tx.signatures
  createdDate := tx.createdDate
  updatedDate := tx.updatedDate
  rejectedDate := tx.rejectedDate
  submissionDate := tx.submittedDate
  processedDate := tx.processedDate
  transactionHash := tx.transactionHash.map String.toList
  feeEstimateGas := tx.feeEstimate.map fun estimate => Decimal.text estimate.gas
  feeEstimateDataGas := tx.feeEstimate.map fun estimate => Decimal.text estimate.dataGas
  feeEstimateOperationalGas :=
    tx.feeEstimate.map fun estimate => Decimal.text estimate.operationalGas
  feeEstimateGasPrice := tx.feeEstimate.map fun estimate => estimate.gasPrice.serialized
  data := tx.data
  operation := tx.operation.map WalletOperation.rawValue
  nonce := tx.nonce.map Decimal.text
  hash := tx.hash

/-! ## Reading -/

section Reading

variable (kit : TextKit)

/-- `Address(_:)` of a column. -/
def nextAddress : Option (List Char) → Trapping (Option Address)
  | none => return none
  | some column => do return some (← Address.make (String.ofList (Column.nextString column)))

/-- `TokenAmount(_:)` of a column. -/
def nextAmount : Option (List Char) → Trapping (Option TokenAmount)
  | none => return none
  | some column => TokenAmount.ofText kit (Column.nextString column)

/-- `TokenInt(_:)` of a column. -/
def nextInteger (column : Option (List Char)) : Option ℤ :=
  column.bind fun column => kit.integer (Column.nextString column)

/-- A stored signature. -/
def deserializedSignature (value : List Char) : Trapping (Option Signature) :=
  match Separated.components kit.combining [','] value with
  | [address, data] => do
    let address ← Address.make (String.ofList address)
    return some ⟨Data.ofEthHex data, address⟩
  | _ => return none

/-- `deserialized(signatures:)`. -/
def deserializedSignatures (signatures : List Char) : Trapping (List Signature) := do
  let values ← (Separated.components kit.combining [';'] signatures).mapM
    (deserializedSignature kit)
  return values.reduceOption

/-- The estimate, if all of its columns can be read. -/
def nextFeeEstimate (row : TransactionRow) : Trapping (Option TransactionFeeEstimate) :=
  match nextInteger kit row.feeEstimateGas, nextInteger kit row.feeEstimateDataGas,
    nextInteger kit row.feeEstimateOperationalGas with
  | some gas, some dataGas, some operationalGas => do
    let gasPrice ← nextAmount kit row.feeEstimateGasPrice
    return gasPrice.map fun gasPrice => ⟨gas, dataGas, operationalGas, gasPrice⟩
  | _, _, _ => return none

/-- `update(_:_:)` and `updateRemaining(_:_:)`: every change is made to the new draft. -/
def contents (row : TransactionRow) (type : TransactionType) (now : Date) :
    Trapping Transaction := do
  let sender ← nextAddress row.sender
  let recipient ← nextAddress row.recipient
  let amount ← nextAmount kit row.amount
  let fee ← nextAmount kit row.fee
  let signatures ← deserializedSignatures kit (Column.nextString row.signatures)
  let feeEstimate ← nextFeeEstimate kit row
  let tx := signatures.foldl (fun tx signature => tx.add signature now)
    (Transaction.new row.id type row.accountID now)
  return { tx with
    sender := sender
    recipient := recipient
    amount := amount
    fee := fee
    transactionHash := row.transactionHash.map fun column =>
      String.ofList (Column.nextString column)
    feeEstimate := feeEstimate
    data := Column.nextData row.data
    operation := row.operation.bind WalletOperation.ofRawValue
    nonce := row.nonce.bind fun column => Decimal.integer (Column.nextString column)
    hash := Column.nextData row.hash
    updatedDate := some now }

end Reading

/-- The operations that lead from a draft to a status. -/
def replay (status : TransactionStatus) (tx : Transaction) (now : Date) : Trapping Transaction :=
  match status with
  | .draft => return tx
  | .signing => tx.proceed now
  | .pending => do (← tx.proceed now).proceed now
  | .rejected => do (← tx.proceed now).reject now
  | .failed => do (← (← tx.proceed now).proceed now).fail now
  | .success => do (← (← tx.proceed now).proceed now).succeed now

/-- `timestamp(_:with:)`. -/
def timestamp (tx : Transaction) (row : TransactionRow) : Transaction :=
  { tx with
    createdDate := row.createdDate.or tx.createdDate
    updatedDate := row.updatedDate.or tx.updatedDate
    rejectedDate := row.rejectedDate.or tx.rejectedDate
    submittedDate := row.submissionDate.or tx.submittedDate
    processedDate := row.processedDate.or tx.processedDate }

/-- `transactionFromResultSet(_:)`. -/
def transactionFromResultSet (kit : TextKit) (row : TransactionRow) (now : Date) :
    Trapping (Option Transaction) :=
  match TransactionType.ofRawValue row.transactionType,
    TransactionStatus.ofRawValue row.transactionStatus with
  | some type, some status => do
    let tx ← contents kit row type now
    let tx ← replay status tx now
    return some (timestamp tx row)
  | _, _ => return none

/-! ## Reading what was written -/

section ReadBack

variable {kit : TextKit}

/-- The text of a column without a NUL is read to its end. -/
theorem nextString_eq_self {column : List Char} :
    Column.nextString column = column ↔ '\x00' ∉ column := by
  rw [Column.nextString, List.takeWhile_eq_self_iff]
  constructor
  · intro h hmem
    simpa using h _ hmem
  · intro h c hc
    simp only [decide_eq_true_eq]
    rintro rfl
    exact h hc

theorem nul_not_mem_nextString (column : List Char) : '\x00' ∉ Column.nextString column := by
  intro hmem
  simpa using List.mem_takeWhile_imp hmem

theorem nextString_of_plain {text : List Char} (h : Plain text) : Column.nextString text = text :=
  nextString_eq_self.mpr (h.not_mem rfl)

theorem nextAddress_value {address : Option Address} (h : ∀ a ∈ address, a.WellFormed) :
    nextAddress (address.map fun a => a.value.toList) = .ok address := by
  cases address with
  | none => rfl
  | some a =>
      have hwf := h a rfl
      simp only [Option.map_some, nextAddress, nextString_of_plain hwf.plain, String.ofList_toList,
        hwf.make, Trapping.ok_bind, Trapping.pure_eq_ok]

theorem nextInteger_text (value : ℤ) : nextInteger kit (some (Decimal.text value)) = some value := by
  rw [nextInteger, Option.bind_some, nextString_of_plain (Decimal.plain_text value),
    kit.integer_text]

/-- A text of an amount has a NUL only in the texts of its token. -/
theorem nul_mem_serialized {amount : TokenAmount} (haddress : amount.token.address.WellFormed)
    (h : '\x00' ∈ amount.serialized) : '\x00' ∈ amount.token.code.toList ∨
      '\x00' ∈ amount.token.name.toList ∨ '\x00' ∈ amount.token.logoUrl.toList := by
  have hnumber := (Decimal.plain_text amount.amount).not_mem (c := '\x00') rfl
  have hdecimals := (Decimal.plain_text amount.token.decimals.toInt).not_mem (c := '\x00') rfl
  have hplain := haddress.plain.not_mem (c := '\x00') rfl
  have hseparators : '\x00' ∉ TokenAmount.separator ∧ '\x00' ∉ Token.separator := by decide
  simp only [TokenAmount.serialized, Token.serialized, Token.parts, Separated.joined,
    List.mem_append, hnumber, hdecimals, hplain, hseparators.1, hseparators.2, false_or] at h
  exact h

/-- An amount is read back from its column. -/
structure Stored (kit : TextKit) (amount : TokenAmount) : Prop where
  storable : amount.Storable kit
  no_nul : '\x00' ∉ amount.serialized

theorem nextAmount_serialized_iff {amount : TokenAmount}
    (haddress : amount.token.address.WellFormed) :
    nextAmount kit (some amount.serialized) = .ok (some amount) ↔ Stored kit amount := by
  rw [nextAmount]
  constructor
  · intro h
    have hnul : '\x00' ∉ amount.serialized :=
      TokenAmount.nul_not_mem_serialized_of_ofText h (nul_not_mem_nextString _)
    rw [nextString_eq_self.mpr hnul] at h
    exact ⟨(TokenAmount.ofText_serialized_iff haddress).mp h, hnul⟩
  · intro h
    rw [nextString_eq_self.mpr h.no_nul]
    exact (TokenAmount.ofText_serialized_iff haddress).mpr h.storable

theorem nextAmount_iff {amount : Option TokenAmount}
    (haddress : ∀ a ∈ amount, a.token.address.WellFormed) :
    nextAmount kit (amount.map TokenAmount.serialized) = .ok amount ↔
      ∀ a ∈ amount, Stored kit a := by
  cases amount with
  | none => simp [nextAmount]
  | some a =>
      rw [Option.map_some, nextAmount_serialized_iff (haddress a rfl)]
      simp

theorem nextFeeEstimate_iff {tx : Transaction}
    (haddress : ∀ e ∈ tx.feeEstimate, e.gasPrice.token.address.WellFormed) :
    nextFeeEstimate kit (row tx) = .ok tx.feeEstimate ↔
      ∀ e ∈ tx.feeEstimate, Stored kit e.gasPrice := by
  cases hestimate : tx.feeEstimate with
  | none => simp [nextFeeEstimate, row, hestimate, nextInteger]
  | some estimate =>
      have hread := @nextAmount_serialized_iff kit _ (haddress estimate hestimate)
      simp only [nextFeeEstimate, row, hestimate, Option.map_some, nextInteger_text,
        Option.mem_def, Option.some.injEq, forall_eq', ← hread]
      constructor
      · intro h
        simp only [Trapping.bind_eq_ok_iff] at h
        obtain ⟨gasPrice, hgasPrice, h⟩ := h
        cases gasPrice with
        | none => cases h
        | some gasPrice =>
            have hsame : gasPrice = estimate.gasPrice :=
              congrArg TransactionFeeEstimate.gasPrice (Option.some.inj (Except.ok.inj h))
            rw [← hsame]
            rw [← hsame] at hgasPrice
            exact hgasPrice
      · intro h
        simp only [h, Trapping.ok_bind, Option.map_some, Trapping.pure_eq_ok]

/-! ## Signers that were read -/

/-- An address that the program accepts, and whose text is kept apart in a list of
signatures. -/
structure Signer (kit : TextKit) (address : Address) : Prop where
  make : Address.make address.value = .ok address
  pairs : Separated.Clear kit.combining [','] address.value.toList
  lists : Separated.Unseparated kit.combining [';'] address.value.toList
  no_nul : '\x00' ∉ address.value.toList

theorem plain_toHexString (data : Data) : Plain data.toHexString := fun c hc =>
  .inl (isAlphanum_of_digitValue (Data.isHex_toHexString data c hc))

theorem clear_of_not_mem {c : Char} {text : List Char} (hc : kit.combining c = false)
    (h : c ∉ text) : Separated.Clear kit.combining [c] text :=
  (Separated.clear_replicate_iff Nat.one_pos hc).mpr
    ⟨Separated.unseparated_of_not_mem (by simp) h, fun hlast => h (List.mem_of_getLast? hlast)⟩

theorem Signer.of_wellFormed {address : Address} (h : address.WellFormed) : Signer kit address where
  make := h.make
  pairs := clear_of_not_mem (kit.combining_ascii _ (by decide)) (h.plain.not_mem rfl)
  lists := Separated.unseparated_of_not_mem (c := ';') (by simp) (h.plain.not_mem rfl)
  no_nul := h.plain.not_mem rfl

/-- An accepted text begins with a digit, to which nothing is attached. -/
theorem free_of_make {text : String} {address : Address} (h : Address.make text = .ok address) :
    Separated.Free kit.combining text.toList := by
  simp only [Address.make, Trapping.bind_eq_ok_iff, Trapping.require_eq_ok_iff] at h
  obtain ⟨_, hprefix, -⟩ := h
  have htake : text.toList.take 2 = ['0', 'x'] := by simpa using hprefix
  cases htext : text.toList with
  | nil => rfl
  | cons c rest =>
      rw [htext, List.take_succ_cons] at htake
      rw [(List.cons.inj htake).1]
      exact kit.combining_ascii '0' (by decide)

section Signed

variable {signature : Signature} {signatures : List Signature}

/-- The text of a signature can be an element of the list. -/
theorem separable_serializedSignature (h : Signer kit signature.address) :
    Separated.Unseparated kit.combining [';'] (serializedSignature signature) ∧
      (serializedSignature signature).getLast? ≠ some ';' ∧
      Separated.Free kit.combining (serializedSignature signature) := by
  have hdata := plain_toHexString signature.data
  have htail : ';' ∉ [','] ++ signature.data.toHexString := by
    rw [List.mem_append, not_or]
    exact ⟨by decide, hdata.not_mem rfl⟩
  refine ⟨?_, fun hlast => ?_, ?_⟩
  · rw [serializedSignature, Separated.joined, Separated.joined,
      Separated.unseparated_append_sep_iff (by simp) (by simp)
        (by simpa using kit.combining_ascii ',' (by decide))]
    exact ⟨h.lists, Separated.unseparated_of_not_mem (c := ';') (by simp) (hdata.not_mem rfl)⟩
  · rw [serializedSignature, Separated.joined, Separated.joined, List.getLast?_append] at hlast
    have hne : [','] ++ signature.data.toHexString ≠ [] := by simp
    rw [List.getLast?_eq_some_getLast hne, Option.some_or, Option.some.injEq] at hlast
    exact htail (hlast ▸ List.getLast_mem hne)
  · rw [serializedSignature, Separated.free_joined_iff (kit.combining_ascii ',' (by decide))]
    exact free_of_make h.make

theorem deserializedSignature_of_signer (h : Signer kit signature.address) :
    deserializedSignature kit (serializedSignature signature) = .ok (some signature) := by
  have hdata := plain_toHexString signature.data
  have hseparable : Separated.Separable kit.combining [',']
      [signature.address.value.toList, signature.data.toHexString] :=
    ⟨h.pairs, Token.free_of_plain hdata,
      Separated.unseparated_of_not_mem (c := ',') (by simp) (hdata.not_mem rfl)⟩
  have hcomponents :=
    (Separated.components_joined_iff (by simp) (List.cons_ne_nil _ _)).mpr hseparable
  simp only [deserializedSignature, serializedSignature, hcomponents, String.ofList_toList,
    h.make, Trapping.ok_bind, Data.ofEthHex_toHexString, Trapping.pure_eq_ok]

/-- Signatures are read back in their order. -/
theorem deserializedSignatures_of_signers
    (h : ∀ signature ∈ signatures, Signer kit signature.address) :
    deserializedSignatures kit (Column.nextString (serializedSignatures signatures)) =
      .ok signatures := by
  have hnul : '\x00' ∉ serializedSignatures signatures := by
    intro hmem
    rcases Separated.mem_joined hmem with hseparator | ⟨text, htext, hmem⟩
    · exact absurd hseparator (by decide)
    · obtain ⟨signature, hsignature, rfl⟩ := List.mem_map.mp htext
      rcases Separated.mem_joined hmem with hseparator | ⟨part, hpart, hmem⟩
      · exact absurd hseparator (by decide)
      · rcases List.mem_cons.mp hpart with rfl | hpart
        · exact (h signature hsignature).no_nul hmem
        · rw [List.mem_singleton.mp hpart] at hmem
          exact (plain_toHexString signature.data).not_mem rfl hmem
  rw [nextString_eq_self.mpr hnul]
  by_cases hne : signatures = []
  · subst hne
    rfl
  · have hseparable : Separated.Separable kit.combining [';']
        (signatures.map serializedSignature) := by
      refine Separated.separable_of_parts (kit.combining_ascii ';' (by decide)) (by simpa using hne)
        fun text htext => ?_
      obtain ⟨signature, hsignature, rfl⟩ := List.mem_map.mp htext
      exact separable_serializedSignature (h signature hsignature)
    have hcomponents :=
      (Separated.components_joined_iff (by simp) (by simpa using hne)).mpr hseparable
    have hread : (signatures.map serializedSignature).mapM (deserializedSignature kit) =
        .ok (signatures.map some) := by
      rw [Trapping.mapM_map_eq_ok fun signature hsignature =>
        deserializedSignature_of_signer (h signature hsignature)]
    simp only [deserializedSignatures, serializedSignatures, hcomponents, hread,
      Trapping.ok_bind, Trapping.pure_eq_ok, List.reduceOption, List.filterMap_map,
      Function.id_comp, List.filterMap_some]

theorem deserializedSignatures_serialized
    (h : ∀ signature ∈ signatures, signature.address.WellFormed) :
    deserializedSignatures kit (Column.nextString (serializedSignatures signatures)) =
      .ok signatures :=
  deserializedSignatures_of_signers fun signature hsignature =>
    .of_wellFormed (h signature hsignature)

/-- What was read from a list of signatures can be written into one. -/
theorem signer_of_deserializedSignatures {value : List Char} (hnul : '\x00' ∉ value)
    (h : deserializedSignatures kit value = .ok signatures) :
    ∀ signature ∈ signatures, Signer kit signature.address := by
  simp only [deserializedSignatures, Trapping.bind_eq_ok_iff, Trapping.pure_eq_ok,
    Except.ok.injEq] at h
  obtain ⟨values, hvalues, rfl⟩ := h
  intro signature hsignature
  obtain ⟨part, hpart, hread⟩ :=
    (Trapping.mem_mapM_iff hvalues).mp (List.reduceOption_mem_iff.mp hsignature)
  have hjoined := @Separated.joined_components _ _ kit.combining [';'] (by simp) value
  have hlists : Separated.Unseparated kit.combining [';'] part := by
    refine Separated.unseparated_of_separable (kit.combining_ascii ';' (by decide)) ?_ part hpart
    rw [← Separated.components_joined_iff (by simp) Separated.components_ne_nil, hjoined]
  have hno : '\x00' ∉ part := fun hmem => hnul (hjoined ▸ Separated.mem_joined_of_mem hpart hmem)
  unfold deserializedSignature at hread
  split at hread
  · rename_i address data hcomponents
    have hpair := @Separated.joined_components _ _ kit.combining [','] (by simp) part
    have hseparable : Separated.Separable kit.combining [','] [address, data] := by
      rw [← Separated.components_joined_iff (by simp) (List.cons_ne_nil _ _), ← hcomponents, hpair]
    rw [hcomponents] at hpair
    simp only [Trapping.bind_eq_ok_iff] at hread
    obtain ⟨a, ha, hread⟩ := hread
    have hvalue := Address.value_of_make ha
    cases hread
    have htext : a.value.toList = address := by rw [hvalue, String.toList_ofList]
    constructor
    case make => rw [hvalue, ha]
    case pairs =>
      rw [htext]
      exact hseparable.1
    case lists =>
      rw [htext]
      rw [← hpair, Separated.joined, Separated.joined,
        Separated.unseparated_append_sep_iff (by simp) (by simp)
          (by simpa using kit.combining_ascii ',' (by decide))] at hlists
      exact hlists.1
    case no_nul =>
      rw [htext]
      exact fun hmem => hno (hpair ▸ Separated.mem_joined_of_mem List.mem_cons_self hmem)
  · cases hread

end Signed

end ReadBack

/-! ## Replaying the status -/

/-- The transaction was submitted at some time. -/
def isSubmitted (status : TransactionStatus) : Bool :=
  status = .pending ∨ status = .failed ∨ status = .success

/-- The transaction is final on the chain. -/
def isProcessed (status : TransactionStatus) : Bool := status = .failed ∨ status = .success

/-- What `proceed()` asserts of a draft. -/
structure Complete (tx : Transaction) : Prop where
  sender : tx.sender.isSome
  recipient : tx.recipient.isSome
  amount : tx.amount.isSome
  fee : tx.fee.isSome

/-- What the status machine asserts on the way to a status. -/
structure Ready (status : TransactionStatus) (tx : Transaction) : Prop where
  complete : status ≠ .draft → Complete tx
  transactionHash : isSubmitted status = true → tx.transactionHash.isSome

/-- The transaction with the status and the dates of the way to it. -/
def replayed (status : TransactionStatus) (tx : Transaction) (now : Date) : Transaction :=
  { tx with
    status := status
    updatedDate := if status = .draft then tx.updatedDate else some now
    rejectedDate := if status = .rejected then some now else tx.rejectedDate
    submittedDate := if isSubmitted status then some now else tx.submittedDate
    processedDate := if isProcessed status then some now else tx.processedDate }

section Replay

variable {tx tx' : Transaction} {now : Date}

theorem proceed_draft_iff (hdraft : tx.status = .draft) : tx.proceed now = .ok tx' ↔
    Complete tx ∧ tx' = { tx with status := .signing, updatedDate := some now } := by
  simp only [Transaction.proceed, hdraft, Trapping.bind_eq_ok_iff, Trapping.require_eq_ok_iff,
    Trapping.pure_eq_ok, Except.ok.injEq]
  constructor
  · rintro ⟨_, hsender, _, hrecipient, _, hamount, _, hfee, rfl⟩
    exact ⟨⟨hsender, hrecipient, hamount, hfee⟩, rfl⟩
  · rintro ⟨⟨hsender, hrecipient, hamount, hfee⟩, rfl⟩
    exact ⟨(), hsender, (), hrecipient, (), hamount, (), hfee, rfl⟩

theorem proceed_signing_iff (hsigning : tx.status = .signing) : tx.proceed now = .ok tx' ↔
    tx.transactionHash.isSome ∧ tx' = { tx with
      status := .pending, submittedDate := some now, updatedDate := some now } := by
  simp only [Transaction.proceed, hsigning, Trapping.bind_eq_ok_iff, Trapping.require_eq_ok_iff,
    Trapping.pure_eq_ok, Except.ok.injEq]
  constructor
  · rintro ⟨_, hhash, rfl⟩
    exact ⟨hhash, rfl⟩
  · rintro ⟨hhash, rfl⟩
    exact ⟨(), hhash, rfl⟩

/-- The first two steps of what was submitted. -/
theorem proceed_proceed_iff (hdraft : tx.status = .draft) :
    (tx.proceed now >>= fun tx => tx.proceed now) = .ok tx' ↔
      Complete tx ∧ tx.transactionHash.isSome ∧ tx' = { tx with
        status := .pending, submittedDate := some now, updatedDate := some now } := by
  rw [Trapping.bind_eq_ok_iff]
  constructor
  · rintro ⟨signing, hproceed, hnext⟩
    obtain ⟨hcomplete, rfl⟩ := (proceed_draft_iff hdraft).mp hproceed
    obtain ⟨hhash, rfl⟩ := (proceed_signing_iff rfl).mp hnext
    exact ⟨hcomplete, hhash, rfl⟩
  · rintro ⟨hcomplete, hhash, rfl⟩
    exact ⟨_, (proceed_draft_iff hdraft).mpr ⟨hcomplete, rfl⟩,
      (proceed_signing_iff rfl).mpr ⟨hhash, rfl⟩⟩

theorem ready_draft (tx : Transaction) : Ready .draft tx :=
  ⟨fun h => absurd rfl h, fun h => by cases h⟩

theorem ready_unsubmitted_iff {status : TransactionStatus} (hstatus : status ≠ .draft)
    (hsubmitted : isSubmitted status = false) : Ready status tx ↔ Complete tx := by
  constructor
  · exact fun h => h.complete hstatus
  · intro h
    refine ⟨fun _ => h, fun hsubmitted' => ?_⟩
    rw [hsubmitted] at hsubmitted'
    cases hsubmitted'

theorem ready_submitted_iff {status : TransactionStatus} (hsubmitted : isSubmitted status = true) :
    Ready status tx ↔ Complete tx ∧ tx.transactionHash.isSome := by
  have hstatus : status ≠ .draft := by
    rintro rfl
    cases hsubmitted
  exact ⟨fun h => ⟨h.complete hstatus, h.transactionHash hsubmitted⟩,
    fun h => ⟨fun _ => h.1, fun _ => h.2⟩⟩

theorem replayed_draft (hdraft : tx.status = .draft) : replayed .draft tx now = tx := by
  cases tx
  cases hdraft
  rfl

/-- A draft is replayed exactly if nothing is missing on the way. -/
theorem replay_eq_ok_iff {status : TransactionStatus} (hdraft : tx.status = .draft) :
    replay status tx now = .ok tx' ↔ Ready status tx ∧ tx' = replayed status tx now := by
  cases status with
  | draft =>
      rw [and_iff_right (ready_draft tx), replayed_draft hdraft]
      exact ⟨fun h => (Except.ok.inj h).symm, fun h => congrArg Except.ok h.symm⟩
  | signing =>
      rw [ready_unsubmitted_iff (by decide) rfl]
      exact proceed_draft_iff hdraft
  | pending =>
      rw [ready_submitted_iff rfl, and_assoc]
      exact proceed_proceed_iff hdraft
  | rejected =>
      rw [ready_unsubmitted_iff (by decide) rfl, replay, Trapping.bind_eq_ok_iff]
      constructor
      · rintro ⟨signing, hproceed, hreject⟩
        obtain ⟨hcomplete, rfl⟩ := (proceed_draft_iff hdraft).mp hproceed
        cases hreject
        exact ⟨hcomplete, rfl⟩
      · rintro ⟨hcomplete, rfl⟩
        exact ⟨_, (proceed_draft_iff hdraft).mpr ⟨hcomplete, rfl⟩, rfl⟩
  | failed =>
      rw [ready_submitted_iff rfl, and_assoc, replay, ← bind_assoc, Trapping.bind_eq_ok_iff]
      constructor
      · rintro ⟨pending, hproceed, hfail⟩
        obtain ⟨hcomplete, hhash, rfl⟩ := (proceed_proceed_iff hdraft).mp hproceed
        cases hfail
        exact ⟨hcomplete, hhash, rfl⟩
      · rintro ⟨hcomplete, hhash, rfl⟩
        exact ⟨_, (proceed_proceed_iff hdraft).mpr ⟨hcomplete, hhash, rfl⟩, rfl⟩
  | success =>
      rw [ready_submitted_iff rfl, and_assoc, replay, ← bind_assoc, Trapping.bind_eq_ok_iff]
      constructor
      · rintro ⟨pending, hproceed, hsucceed⟩
        obtain ⟨hcomplete, hhash, rfl⟩ := (proceed_proceed_iff hdraft).mp hproceed
        cases hsucceed
        exact ⟨hcomplete, hhash, rfl⟩
      · rintro ⟨hcomplete, hhash, rfl⟩
        exact ⟨_, (proceed_proceed_iff hdraft).mpr ⟨hcomplete, hhash, rfl⟩, rfl⟩

end Replay

/-! ## Reading a row -/

/-- What is read from the columns that can be misread. -/
@[ext]
structure ReadColumns where
  sender : Option Address
  recipient : Option Address
  amount : Option TokenAmount
  fee : Option TokenAmount
  signatures : List Signature
  feeEstimate : Option TransactionFeeEstimate

/-- The columns are read as these values. -/
structure Reads (kit : TextKit) (row : TransactionRow) (columns : ReadColumns) : Prop where
  sender : nextAddress row.sender = .ok columns.sender
  recipient : nextAddress row.recipient = .ok columns.recipient
  amount : nextAmount kit row.amount = .ok columns.amount
  fee : nextAmount kit row.fee = .ok columns.fee
  signatures : deserializedSignatures kit (Column.nextString row.signatures) =
    .ok columns.signatures
  feeEstimate : nextFeeEstimate kit row = .ok columns.feeEstimate

/-- The draft that is made of the columns. -/
def draftFrom (row : TransactionRow) (type : TransactionType) (columns : ReadColumns)
    (now : Date) : Transaction :=
  { Transaction.new row.id type row.accountID now with
    sender := columns.sender
    recipient := columns.recipient
    amount := columns.amount
    fee := columns.fee
    signatures := TransactionSyncDomainService.added columns.signatures []
    transactionHash := row.transactionHash.map fun column =>
      String.ofList (Column.nextString column)
    feeEstimate := columns.feeEstimate
    data := Column.nextData row.data
    operation := row.operation.bind WalletOperation.ofRawValue
    nonce := row.nonce.bind fun column => Decimal.integer (Column.nextString column)
    hash := Column.nextData row.hash }

/-- What a row is loaded as. -/
def loadedFrom (row : TransactionRow) (type : TransactionType) (status : TransactionStatus)
    (columns : ReadColumns) (now : Date) : Transaction :=
  timestamp (replayed status (draftFrom row type columns now) now) row

section Loading

variable {kit : TextKit} {row : TransactionRow} {tx tx' loaded : Transaction} {now : Date}

/-- The status machine asks for the fields alone. -/
theorem Ready.of_same {status : TransactionStatus} (h : Ready status tx)
    (hsender : tx'.sender = tx.sender) (hrecipient : tx'.recipient = tx.recipient)
    (hamount : tx'.amount = tx.amount) (hfee : tx'.fee = tx.fee)
    (hhash : tx'.transactionHash.isSome = tx.transactionHash.isSome) : Ready status tx' := by
  refine ⟨fun hstatus => ?_, fun hsubmitted => hhash ▸ h.transactionHash hsubmitted⟩
  have hcomplete := h.complete hstatus
  exact ⟨hsender ▸ hcomplete.sender, hrecipient ▸ hcomplete.recipient,
    hamount ▸ hcomplete.amount, hfee ▸ hcomplete.fee⟩

theorem Reads.unique {columns columns' : ReadColumns} (h : Reads kit row columns)
    (h' : Reads kit row columns') : columns = columns' :=
  ReadColumns.ext (Except.ok.inj (h.sender.symm.trans h'.sender))
    (Except.ok.inj (h.recipient.symm.trans h'.recipient))
    (Except.ok.inj (h.amount.symm.trans h'.amount)) (Except.ok.inj (h.fee.symm.trans h'.fee))
    (Except.ok.inj (h.signatures.symm.trans h'.signatures))
    (Except.ok.inj (h.feeEstimate.symm.trans h'.feeEstimate))

theorem contents_eq_ok_iff {type : TransactionType} : contents kit row type now = .ok tx ↔
    ∃ columns, Reads kit row columns ∧ tx = draftFrom row type columns now := by
  have hdraft (columns : ReadColumns) :
      { columns.signatures.foldl (fun tx signature => tx.add signature now)
          (Transaction.new row.id type row.accountID now) with
        sender := columns.sender
        recipient := columns.recipient
        amount := columns.amount
        fee := columns.fee
        transactionHash := row.transactionHash.map fun column =>
          String.ofList (Column.nextString column)
        feeEstimate := columns.feeEstimate
        data := Column.nextData row.data
        operation := row.operation.bind WalletOperation.ofRawValue
        nonce := row.nonce.bind fun column => Decimal.integer (Column.nextString column)
        hash := Column.nextData row.hash
        updatedDate := some now } = draftFrom row type columns now := by
    obtain ⟨date, hadded⟩ := TransactionSyncDomainService.foldl_add columns.signatures
      (Transaction.new row.id type row.accountID now) now
    rw [hadded]
    rfl
  simp only [contents, Trapping.bind_eq_ok_iff, Trapping.pure_eq_ok, Except.ok.injEq]
  constructor
  · rintro ⟨sender, hsender, recipient, hrecipient, amount, hamount, fee, hfee, signatures,
      hsignatures, feeEstimate, hfeeEstimate, rfl⟩
    exact ⟨⟨sender, recipient, amount, fee, signatures, feeEstimate⟩,
      ⟨hsender, hrecipient, hamount, hfee, hsignatures, hfeeEstimate⟩,
      hdraft ⟨sender, recipient, amount, fee, signatures, feeEstimate⟩⟩
  · rintro ⟨columns, h, rfl⟩
    exact ⟨_, h.sender, _, h.recipient, _, h.amount, _, h.fee, _, h.signatures, _,
      h.feeEstimate, hdraft columns⟩

/-- Loading a row means reading its columns and replaying the status. -/
theorem load_eq_some_iff : transactionFromResultSet kit row now = .ok (some tx) ↔
    ∃ type status columns, TransactionType.ofRawValue row.transactionType = some type ∧
      TransactionStatus.ofRawValue row.transactionStatus = some status ∧
      Reads kit row columns ∧ Ready status (draftFrom row type columns 0) ∧
      tx = loadedFrom row type status columns now := by
  have hready {type : TransactionType} {status : TransactionStatus} {columns : ReadColumns} :
      Ready status (draftFrom row type columns 0) ↔ Ready status (draftFrom row type columns now) :=
    ⟨fun h => h.of_same rfl rfl rfl rfl rfl, fun h => h.of_same rfl rfl rfl rfl rfl⟩
  unfold transactionFromResultSet
  cases htype : TransactionType.ofRawValue row.transactionType with
  | none => simp
  | some type =>
      cases hstatus : TransactionStatus.ofRawValue row.transactionStatus with
      | none => simp
      | some status =>
          simp only [Trapping.bind_eq_ok_iff, Trapping.pure_eq_ok, Except.ok.injEq,
            Option.some.injEq, contents_eq_ok_iff]
          constructor
          · rintro ⟨_, ⟨columns, hcolumns, rfl⟩, _, hreplay, rfl⟩
            obtain ⟨hstatusReady, rfl⟩ := (replay_eq_ok_iff rfl).mp hreplay
            exact ⟨type, status, columns, rfl, rfl, hcolumns, hready.mpr hstatusReady, rfl⟩
          · rintro ⟨_, _, columns, rfl, rfl, hcolumns, hstatusReady, rfl⟩
            exact ⟨_, ⟨columns, hcolumns, rfl⟩, _,
              (replay_eq_ok_iff rfl).mpr ⟨hready.mp hstatusReady, rfl⟩, rfl⟩

/-- A row without a known type or status is not loaded, and stops nothing. -/
theorem load_eq_none_iff : transactionFromResultSet kit row now = .ok none ↔
    TransactionType.ofRawValue row.transactionType = none ∨
      TransactionStatus.ofRawValue row.transactionStatus = none := by
  unfold transactionFromResultSet
  cases TransactionType.ofRawValue row.transactionType with
  | none => simp
  | some type =>
      cases TransactionStatus.ofRawValue row.transactionStatus with
      | none => simp
      | some status => simp [Trapping.bind_eq_ok_iff]

/-- A written row is loaded under the type and the status that were written. -/
theorem load_row_eq_some_iff :
    transactionFromResultSet kit (DBTransactionRepository.row tx) now = .ok (some loaded) ↔
      ∃ columns, Reads kit (DBTransactionRepository.row tx) columns ∧
        Ready tx.status (draftFrom (DBTransactionRepository.row tx) tx.type columns 0) ∧
        loaded = loadedFrom (DBTransactionRepository.row tx) tx.type tx.status columns now := by
  have htype : TransactionType.ofRawValue (DBTransactionRepository.row tx).transactionType =
      some tx.type := TransactionType.ofRawValue_rawValue tx.type
  have hstatus : TransactionStatus.ofRawValue (DBTransactionRepository.row tx).transactionStatus =
      some tx.status := TransactionStatus.ofRawValue_rawValue tx.status
  rw [load_eq_some_iff, htype, hstatus]
  constructor
  · rintro ⟨_, _, columns, ⟨⟩, ⟨⟩, hcolumns, hready, rfl⟩
    exact ⟨columns, hcolumns, hready, rfl⟩
  · rintro ⟨columns, hcolumns, hready, rfl⟩
    exact ⟨_, _, columns, rfl, rfl, hcolumns, hready, rfl⟩

theorem load_row_ne_none :
    transactionFromResultSet kit (DBTransactionRepository.row tx) now ≠ .ok none := by
  rw [ne_eq, load_eq_none_iff]
  have htype : TransactionType.ofRawValue (DBTransactionRepository.row tx).transactionType =
      some tx.type := TransactionType.ofRawValue_rawValue tx.type
  have hstatus : TransactionStatus.ofRawValue (DBTransactionRepository.row tx).transactionStatus =
      some tx.status := TransactionStatus.ofRawValue_rawValue tx.status
  simp [htype, hstatus]

end Loading

/-! ## Transactions that are loaded as they were -/

/-- The transaction, with empty data identified with none. -/
def withoutEmptyData (tx : Transaction) : Transaction :=
  { tx with data := tx.data.filter (· ≠ []) }

/-- A saved transaction is loaded at any time, and with all of its fields. -/
def Reloads (kit : TextKit) (tx : Transaction) : Prop :=
  ∀ now, transactionFromResultSet kit (row tx) now = .ok (some (withoutEmptyData tx))

/-- All addresses are prefixed digits of twenty bytes. -/
structure WellFormedAddresses (tx : Transaction) : Prop where
  sender : ∀ a ∈ tx.sender, a.WellFormed
  recipient : ∀ a ∈ tx.recipient, a.WellFormed
  amount : ∀ amount ∈ tx.amount, amount.token.address.WellFormed
  fee : ∀ fee ∈ tx.fee, fee.token.address.WellFormed
  feeEstimate : ∀ estimate ∈ tx.feeEstimate, estimate.gasPrice.token.address.WellFormed
  signatures : ∀ signature ∈ tx.signatures, signature.address.WellFormed

/-- The columns hold the transaction, and the replay finds what it asserts and is overwritten
by the stored dates. -/
structure Persistent (kit : TextKit) (tx : Transaction) : Prop where
  amount : ∀ amount ∈ tx.amount, Stored kit amount
  fee : ∀ fee ∈ tx.fee, Stored kit fee
  gasPrice : ∀ estimate ∈ tx.feeEstimate, Stored kit estimate.gasPrice
  signatures : tx.signatures.Nodup
  transactionHash : ∀ text ∈ tx.transactionHash, '\x00' ∉ text.toList
  hash : tx.hash ≠ some []
  ready : Ready tx.status tx
  createdDate : tx.createdDate.isSome
  updatedDate : tx.updatedDate.isSome
  rejectedDate : tx.status = .rejected → tx.rejectedDate.isSome
  submittedDate : isSubmitted tx.status = true → tx.submittedDate.isSome
  processedDate : isProcessed tx.status = true → tx.processedDate.isSome

/-- The fields of a transaction that its columns are read as. -/
def columnsOf (tx : Transaction) : ReadColumns where
  sender := tx.sender
  recipient := tx.recipient
  amount := tx.amount
  fee := tx.fee
  signatures := tx.signatures
  feeEstimate := tx.feeEstimate

section Reload

variable {kit : TextKit} {tx loaded : Transaction} {now : Date}

/-- The date the replay leaves is covered exactly if one is stored. -/
theorem or_ite_eq_self_iff {date : Option Date} {p : Prop} [Decidable p] :
    date.or (if p then some now else none) = date ↔ (p → date.isSome) := by
  cases date with
  | none =>
      by_cases hp : p <;> simp [hp]
  | some date => simp

/-- Reading a column up to a NUL gives the text back exactly if there is none. -/
theorem map_nextString_eq_self_iff {text : Option String} :
    text.map (fun text => String.ofList (Column.nextString text.toList)) = text ↔
      ∀ t ∈ text, '\x00' ∉ t.toList := by
  cases text with
  | none => simp
  | some text =>
      simp only [Option.map_some, Option.some.injEq, Option.mem_def, forall_eq']
      rw [← nextString_eq_self]
      constructor
      · intro h
        have := congrArg String.toList h
        rw [String.toList_ofList] at this
        exact this
      · intro h
        rw [h, String.ofList_toList]

theorem nextData_eq_self_iff {data : Option Data} : Column.nextData data = data ↔ data ≠ some [] := by
  cases data with
  | none => simp [Column.nextData]
  | some data => by_cases hempty : data = [] <;> simp [Column.nextData, Option.filter_some, hempty]

theorem operation_row (tx : Transaction) :
    (row tx).operation.bind WalletOperation.ofRawValue = tx.operation := by
  rw [row]
  cases tx.operation <;> simp

theorem nonce_row (tx : Transaction) : ((row tx).nonce.bind fun column =>
    Decimal.integer (Column.nextString column)) = tx.nonce := by
  rw [row]
  cases tx.nonce with
  | none => rfl
  | some nonce => simp [nextString_of_plain (Decimal.plain_text nonce), Decimal.integer_text]

theorem transactionHash_row (tx : Transaction) : ((row tx).transactionHash.map fun column =>
    String.ofList (Column.nextString column)) = tx.transactionHash.map fun text =>
      String.ofList (Column.nextString text.toList) := by
  rw [row]
  simp [Function.comp_def]

/-- The draft goes through the replay as the transaction itself would. -/
theorem ready_draftFrom_iff {status : TransactionStatus} :
    Ready status (draftFrom (row tx) tx.type (columnsOf tx) now) ↔ Ready status tx := by
  have hhash : (draftFrom (row tx) tx.type (columnsOf tx) now).transactionHash.isSome =
      tx.transactionHash.isSome := by
    rw [draftFrom, transactionHash_row]
    exact Option.isSome_map
  exact ⟨fun h => h.of_same rfl rfl rfl rfl hhash.symm, fun h => h.of_same rfl rfl rfl rfl hhash⟩

/-- What the replay makes of the columns is the transaction, if the stored dates, the hashes
and the signatures allow it. -/
theorem loadedFrom_row_eq_iff :
    loadedFrom (row tx) tx.type tx.status (columnsOf tx) now = withoutEmptyData tx ↔
      tx.signatures.Nodup ∧ (∀ text ∈ tx.transactionHash, '\x00' ∉ text.toList) ∧
      tx.hash ≠ some [] ∧ tx.createdDate.isSome ∧ tx.updatedDate.isSome ∧
      (tx.status = .rejected → tx.rejectedDate.isSome) ∧
      (isSubmitted tx.status = true → tx.submittedDate.isSome) ∧
      (isProcessed tx.status = true → tx.processedDate.isSome) := by
  have hsome : ∀ date : Option Date, date.or (some now) = date ↔ date.isSome := by
    intro date
    cases date <;> simp
  have hupdated : (if tx.status = .draft then some now else some now) = some now := ite_self _
  have hdata : Column.nextData (row tx).data = tx.data.filter (· ≠ []) := rfl
  have hhash : Column.nextData (row tx).hash = Column.nextData tx.hash := rfl
  rw [← TransactionSyncDomainService.added_eq_self_iff, ← map_nextString_eq_self_iff,
    ← nextData_eq_self_iff, ← hsome, ← hsome, ← @or_ite_eq_self_iff now,
    ← @or_ite_eq_self_iff now, ← @or_ite_eq_self_iff now]
  simp only [withoutEmptyData, loadedFrom, timestamp, replayed, draftFrom, operation_row, nonce_row,
    transactionHash_row, hdata, hhash]
  simp only [columnsOf, row, Transaction.new, Transaction.mk.injEq, true_and, and_true, hupdated]
  tauto

/-- The columns are read as the fields exactly if the amounts can be stored. -/
theorem reads_row_iff (h : WellFormedAddresses tx) : Reads kit (row tx) (columnsOf tx) ↔
    (∀ amount ∈ tx.amount, Stored kit amount) ∧ (∀ fee ∈ tx.fee, Stored kit fee) ∧
      ∀ estimate ∈ tx.feeEstimate, Stored kit estimate.gasPrice := by
  rw [← nextAmount_iff h.amount, ← nextAmount_iff h.fee, ← nextFeeEstimate_iff h.feeEstimate]
  constructor
  · exact fun hreads => ⟨hreads.amount, hreads.fee, hreads.feeEstimate⟩
  · rintro ⟨hamount, hfee, hfeeEstimate⟩
    exact ⟨nextAddress_value h.sender, nextAddress_value h.recipient, hamount, hfee,
      deserializedSignatures_serialized h.signatures, hfeeEstimate⟩

/-- A transaction is loaded as it was saved exactly if its columns hold it. -/
theorem reloads_iff (h : WellFormedAddresses tx) : Reloads kit tx ↔ Persistent kit tx := by
  constructor
  · intro hreloads
    obtain ⟨columns, hcolumns, hready, hloaded⟩ := load_row_eq_some_iff.mp (hreloads 0)
    have hsignatures : columns.signatures = tx.signatures := Except.ok.inj
      (hcolumns.signatures.symm.trans (deserializedSignatures_serialized h.signatures))
    have hsame : columns = columnsOf tx := by
      apply ReadColumns.ext
      · exact (congrArg Transaction.sender hloaded).symm
      · exact (congrArg Transaction.recipient hloaded).symm
      · exact (congrArg Transaction.amount hloaded).symm
      · exact (congrArg Transaction.fee hloaded).symm
      · exact hsignatures
      · exact (congrArg Transaction.feeEstimate hloaded).symm
    subst hsame
    obtain ⟨hamount, hfee, hgasPrice⟩ := (reads_row_iff h).mp hcolumns
    obtain ⟨hnodup, htransactionHash, hhash, hcreated, hupdated, hrejected, hsubmitted,
      hprocessed⟩ := loadedFrom_row_eq_iff.mp hloaded.symm
    exact ⟨hamount, hfee, hgasPrice, hnodup, htransactionHash, hhash,
      ready_draftFrom_iff.mp hready, hcreated, hupdated, hrejected, hsubmitted, hprocessed⟩
  · intro hp now
    have hloaded := (@loadedFrom_row_eq_iff tx now).mpr ⟨hp.signatures, hp.transactionHash, hp.hash,
      hp.createdDate, hp.updatedDate, hp.rejectedDate, hp.submittedDate, hp.processedDate⟩
    exact load_row_eq_some_iff.mpr ⟨columnsOf tx,
      (reads_row_iff h).mpr ⟨hp.amount, hp.fee, hp.gasPrice⟩, ready_draftFrom_iff.mpr hp.ready,
      hloaded.symm⟩

end Reload

end DBTransactionRepository

end SafeWallet
