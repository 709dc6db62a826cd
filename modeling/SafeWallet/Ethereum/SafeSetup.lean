/-
# The set-up call of a Safe

`GnosisSafeContractProxy` writes the arguments of `setup` with offsets computed by
hand: eight words, the owners with their number in front, and the bytes of a delegate
call with theirs. Empty bytes are followed by one more zero word. The decoder goes by
the offsets it reads.
-/

import SafeWallet.Ethereum.MultiSendCodec

namespace SafeWallet

namespace Trapping

/-- `BigUInt(n)` for a signed integer. -/
def toUInt (n : ℤ) : Trapping ℕ :=
  if 0 ≤ n then .ok n.toNat else .error .integerOverflow

theorem toUInt_eq_ok_iff {n : ℤ} {m : ℕ} : toUInt n = .ok m ↔ 0 ≤ n ∧ m = n.toNat := by
  unfold toUInt
  split
  · simp only [Except.ok.injEq]
    exact ⟨fun h => ⟨by assumption, h.symm⟩, fun h => h.2.symm⟩
  · simp_all

theorem toUInt_of_nonneg {n : ℤ} (h : 0 ≤ n) : toUInt n = .ok n.toNat := if_pos h

/-- `Data.advanced(by:)`, which insists on a byte that is left. -/
def advanced (amount : ℕ) (data : Data) : Trapping Data :=
  if amount < data.length then .ok (data.drop amount) else .error .precondition

theorem advanced_append {amount : ℕ} {front rest : Data} (h : front.length = amount)
    (hrest : rest ≠ []) : advanced amount (front ++ rest) = .ok rest := by
  have hpos := List.length_pos_iff.mpr hrest
  rw [advanced, if_pos (by rw [List.length_append]; omega), List.drop_left' h]

end Trapping

/-- The arguments of `setup`. -/
structure SafeSetup where
  owners : List Address
  threshold : ℤ
  toAddress : Address
  data : Data
  fallbackHandler : Address
  paymentToken : Address
  payment : ℤ
  paymentReceiver : Address
  deriving DecidableEq, Repr

namespace GnosisSafe

open ContractProxy

/-- `setupSignature`. -/
def setupSignature : String :=
  "setup(address[],uint256,address,bytes,address,address,uint256,address)"

/-- `encodesEmptyDataAsZero`. -/
def encodesEmptyDataAsZero : Bool := true

/-- `setup(owners:threshold:to:data:fallbackHandler:paymentToken:payment:paymentReceiver:)`. -/
def setup (kit : EthereumKit) (arguments : SafeSetup) : Trapping Data := do
  let threshold ← Trapping.toUInt arguments.threshold
  let dataOffset ← Trapping.toInt (8 * 32 + 1 * 32 + arguments.owners.length * 32)
  let payment ← Trapping.toUInt arguments.payment
  let items := [
    encodeUInt (8 * 32),
    encodeUInt threshold,
    encodeAddress arguments.toAddress,
    encodeUInt dataOffset,
    encodeAddress arguments.fallbackHandler,
    encodeAddress arguments.paymentToken,
    encodeUInt payment,
    encodeAddress arguments.paymentReceiver,
    encodeUInt arguments.owners.length] ++
    arguments.owners.map encodeAddress ++
    [encodeBytes arguments.data,
      if encodesEmptyDataAsZero ∧ arguments.data = [] then encodeUInt 0 else []]
  return invocation kit setupSignature items

/-- The owners of `decodeSetup(from:)`, read one after the other. -/
def decodeOwners : ℕ → Data → Trapping (List Address)
  | 0, _ => return []
  | count + 1, addressArrayData => do
      let address := decodeAddress addressArrayData
      let addressArrayData ← Trapping.removeFirst 32 addressArrayData
      let owners ← decodeOwners count addressArrayData
      return address :: owners

/-- `decodeSetup(from:)`. -/
def decodeSetup (kit : EthereumKit) (data : Data) : Trapping (Option SafeSetup) :=
  let selector := method kit setupSignature
  if data.take selector.length = selector then do
    let input ← Trapping.removeFirst selector.length data
    let addressArrayOffset := decodeUInt input
    let input ← Trapping.removeFirst 32 input
    let threshold ← Trapping.toInt (decodeUInt input)
    let input ← Trapping.removeFirst 32 input
    let toAddress := decodeAddress input
    let input ← Trapping.removeFirst 32 input
    let dataOffset := decodeUInt input
    let input ← Trapping.removeFirst 32 input
    let fallbackHandler := decodeAddress input
    let input ← Trapping.removeFirst 32 input
    let paymentToken := decodeAddress input
    let input ← Trapping.removeFirst 32 input
    let payment := decodeUInt input
    let input ← Trapping.removeFirst 32 input
    let paymentReceiver := decodeAddress input
    let _ ← Trapping.removeFirst 32 input
    let addressArrayData ← Trapping.advanced selector.length data
    let addressArrayOffset ← Trapping.toInt addressArrayOffset
    let addressArrayData ← Trapping.advanced addressArrayOffset addressArrayData
    let addressArrayLength ← Trapping.toInt (decodeUInt addressArrayData)
    let addressArrayData ← Trapping.removeFirst 32 addressArrayData
    let owners ← decodeOwners addressArrayLength addressArrayData
    let dataArgumentData ← Trapping.advanced selector.length data
    let dataOffset ← Trapping.toInt dataOffset
    let dataArgumentData ← Trapping.advanced dataOffset dataArgumentData
    let dataArgumentLength ← Trapping.toInt (decodeUInt dataArgumentData)
    let dataArgumentData ← Trapping.removeFirst 32 dataArgumentData
    return some {
      owners := owners
      threshold := threshold
      toAddress := toAddress
      data := dataArgumentData.take dataArgumentLength
      fallbackHandler := fallbackHandler
      paymentToken := paymentToken
      payment := payment
      paymentReceiver := paymentReceiver }
  else
    return none

end GnosisSafe

/-! ## Reading back -/

/-- The same arguments with the addresses in lower case. -/
def SafeSetup.normalized (arguments : SafeSetup) : SafeSetup :=
  { arguments with
    owners := arguments.owners.map Address.normalized
    toAddress := arguments.toAddress.normalized
    fallbackHandler := arguments.fallbackHandler.normalized
    paymentToken := arguments.paymentToken.normalized
    paymentReceiver := arguments.paymentReceiver.normalized }

/-- The addresses have twenty bytes, and the sizes in bytes and the threshold are machine
integers. -/
structure SafeSetup.Encodable (arguments : SafeSetup) : Prop where
  owners_wellFormed : ∀ owner ∈ arguments.owners, owner.WellFormed
  toAddress_wellFormed : arguments.toAddress.WellFormed
  fallbackHandler_wellFormed : arguments.fallbackHandler.WellFormed
  paymentToken_wellFormed : arguments.paymentToken.WellFormed
  paymentReceiver_wellFormed : arguments.paymentReceiver.WellFormed
  threshold_nonneg : 0 ≤ arguments.threshold
  threshold_int : arguments.threshold < 2 ^ 63
  payment_nonneg : 0 ≤ arguments.payment
  owners_int : (9 + arguments.owners.length) * 32 < 2 ^ 63
  data_int : arguments.data.length < 2 ^ 63

namespace GnosisSafe

open ContractProxy

theorem decodeOwners_encoded {owners : List Address} (h : ∀ owner ∈ owners, owner.WellFormed)
    (rest : Data) :
    decodeOwners owners.length ((owners.map encodeAddress).flatten ++ rest) =
      .ok (owners.map Address.normalized) := by
  induction owners with
  | nil => rfl
  | cons owner owners ih =>
      have hrest := ih fun other hother => h other (List.mem_cons_of_mem _ hother)
      rw [List.length_cons, decodeOwners, List.map_cons, List.flatten_cons, List.append_assoc,
        decodeAddress_encodeAddress (h owner List.mem_cons_self),
        Trapping.removeFirst_append (length_encodeAddress owner), Trapping.ok_bind, hrest]
      rfl

/-- The bytes of the arguments, the words that follow each other and the two parts that the
offsets point to. -/
theorem setup_eq (kit : EthereumKit) {arguments : SafeSetup} (h : arguments.Encodable) :
    ∃ head tail trailing,
      setup kit arguments = .ok (method kit setupSignature ++ (head ++ tail)) ∧
      head = encodeUInt (8 * 32) ++ (encodeUInt arguments.threshold.toNat ++
        (encodeAddress arguments.toAddress ++
          (encodeUInt (9 * 32 + arguments.owners.length * 32) ++
            (encodeAddress arguments.fallbackHandler ++ (encodeAddress arguments.paymentToken ++
              (encodeUInt arguments.payment.toNat ++
                encodeAddress arguments.paymentReceiver)))))) ∧
      tail = encodeUInt arguments.owners.length ++
        ((arguments.owners.map encodeAddress).flatten ++
          (encodeUInt arguments.data.length ++ (arguments.data ++ trailing))) := by
  obtain ⟨zeros, hbytes, -⟩ := encodeBytes_spec arguments.data
  have hoffset : 8 * 32 + 1 * 32 + arguments.owners.length * 32 < 2 ^ 63 := by
    have := h.owners_int
    omega
  refine ⟨_, _, zeros ++ (if encodesEmptyDataAsZero ∧ arguments.data = [] then encodeUInt 0 else []),
    ?_, rfl, rfl⟩
  rw [setup, Trapping.toUInt_of_nonneg h.threshold_nonneg, Trapping.toInt_of_lt hoffset,
    Trapping.toUInt_of_nonneg h.payment_nonneg]
  simp only [Trapping.ok_bind, Trapping.pure_eq_ok, invocation, hbytes, List.flatten_append,
    List.flatten_cons, List.flatten_nil, List.append_assoc, List.append_nil]

/-- Reading back what `setup` wrote, of the payment what fits into a word. -/
theorem decodeSetup_setup (kit : EthereumKit) {arguments : SafeSetup} (h : arguments.Encodable) :
    ∃ data, setup kit arguments = .ok data ∧ decodeSetup kit data =
      .ok (some { arguments.normalized with payment := arguments.payment % 2 ^ 256 }) := by
  obtain ⟨head, tail, trailing, hsetup, hhead, htail⟩ := setup_eq kit h
  refine ⟨_, hsetup, ?_⟩
  have hne : ∀ n (rest : Data), encodeUInt n ++ rest ≠ [] := by
    intro n rest hnil
    have := congrArg List.length hnil
    simp at this
  have hheadLength : head.length = 8 * 32 := by simp [hhead]
  have hsize := h.owners_int
  have hdata := h.data_int
  have hthreshold : arguments.threshold.toNat < 2 ^ 63 := by
    have := h.threshold_int
    omega
  have hownersLength : (encodeUInt arguments.owners.length ++
      (arguments.owners.map encodeAddress).flatten).length = 32 + arguments.owners.length * 32 := by
    simp [Function.comp_def]
  have htailOwners : Trapping.advanced (8 * 32) (head ++ tail) = .ok tail :=
    Trapping.advanced_append hheadLength (by rw [htail]; exact hne _ _)
  have htailData : Trapping.advanced (9 * 32 + arguments.owners.length * 32) (head ++ tail) =
      .ok (encodeUInt arguments.data.length ++ (arguments.data ++ trailing)) := by
    rw [htail, ← List.append_assoc (encodeUInt _), ← List.append_assoc head]
    exact Trapping.advanced_append (by rw [List.length_append, hheadLength, hownersLength]; omega)
      (hne _ _)
  have hbody : Trapping.advanced (method kit setupSignature).length
      (method kit setupSignature ++ (head ++ tail)) = .ok (head ++ tail) :=
    Trapping.advanced_append rfl (by rw [hhead, List.append_assoc]; exact hne _ _)
  have hoffset : decodeUInt (head ++ tail) = 8 * 32 := by
    rw [hhead, List.append_assoc, decodeUInt_encodeUInt]
    norm_num
  have hrest : Trapping.removeFirst 32 (head ++ tail) =
      .ok (encodeUInt arguments.threshold.toNat ++ (encodeAddress arguments.toAddress ++
        (encodeUInt (9 * 32 + arguments.owners.length * 32) ++
          (encodeAddress arguments.fallbackHandler ++ (encodeAddress arguments.paymentToken ++
            (encodeUInt arguments.payment.toNat ++
              (encodeAddress arguments.paymentReceiver ++ tail))))))) := by
    rw [hhead, List.append_assoc, Trapping.removeFirst_append (length_encodeUInt _)]
    simp only [List.append_assoc]
  have hsmall : ∀ n, n < 2 ^ 63 → n % 2 ^ 256 = n := fun n hn => Nat.mod_eq_of_lt (by omega)
  rw [decodeSetup]
  simp only [List.take_left, ↓reduceIte, Trapping.removeFirst_append rfl, Trapping.ok_bind, hbody,
    hoffset, hrest, decodeUInt_encodeUInt, Trapping.removeFirst_append (length_encodeUInt _),
    Trapping.removeFirst_append (length_encodeAddress _), hsmall _ hthreshold,
    Trapping.toInt_of_lt hthreshold,
    decodeAddress_encodeAddress h.toAddress_wellFormed,
    decodeAddress_encodeAddress h.fallbackHandler_wellFormed,
    decodeAddress_encodeAddress h.paymentToken_wellFormed,
    decodeAddress_encodeAddress h.paymentReceiver_wellFormed]
  rw [Trapping.toInt_of_lt (by norm_num), Trapping.ok_bind, htailOwners, Trapping.ok_bind, htail,
    decodeUInt_encodeUInt, hsmall _ (by omega), Trapping.toInt_of_lt (by omega), Trapping.ok_bind,
    Trapping.removeFirst_append (length_encodeUInt _), Trapping.ok_bind,
    decodeOwners_encoded h.owners_wellFormed, Trapping.ok_bind, hsmall _ (by omega),
    Trapping.toInt_of_lt (by omega), Trapping.ok_bind, ← htail, htailData, Trapping.ok_bind,
    decodeUInt_encodeUInt, hsmall _ hdata, Trapping.toInt_of_lt hdata, Trapping.ok_bind,
    Trapping.removeFirst_append (length_encodeUInt _), Trapping.ok_bind, List.take_left]
  have hpayment : ((arguments.payment.toNat % 2 ^ 256 : ℕ) : ℤ) = arguments.payment % 2 ^ 256 := by
    rw [Int.natCast_mod, Int.toNat_of_nonneg h.payment_nonneg]
    norm_num
  rw [SafeSetup.normalized, hpayment, Int.toNat_of_nonneg h.threshold_nonneg]
  rfl

/-- Of a number the word keeps only the low end. -/
theorem encodeUInt_congr {n m : ℕ} (h : n % 2 ^ 256 = m % 2 ^ 256) : encodeUInt n = encodeUInt m := by
  obtain ⟨hlength, hvalue⟩ := encodeUInt_spec n
  obtain ⟨hlength', hvalue'⟩ := encodeUInt_spec m
  exact Data.eq_of_toNat_eq (hlength.trans hlength'.symm) (hvalue.trans (h.trans hvalue'.symm))

/-- Payments that differ by whole words give the same call. -/
theorem setup_payment_congr (kit : EthereumKit) (arguments : SafeSetup) {payment payment' : ℤ}
    (hpayment : 0 ≤ payment) (hpayment' : 0 ≤ payment')
    (h : payment.toNat % 2 ^ 256 = payment'.toNat % 2 ^ 256) :
    setup kit { arguments with payment := payment } =
      setup kit { arguments with payment := payment' } := by
  simp only [setup, Trapping.toUInt_of_nonneg hpayment, Trapping.toUInt_of_nonneg hpayment',
    Trapping.ok_bind, encodeUInt_congr h]

/-- Arguments that could be written are in range. -/
theorem setup_ok {kit : EthereumKit} {arguments : SafeSetup} {data : Data}
    (h : setup kit arguments = .ok data) :
    0 ≤ arguments.threshold ∧ 0 ≤ arguments.payment ∧
      (9 + arguments.owners.length) * 32 < 2 ^ 63 := by
  rw [setup, Trapping.bind_eq_ok_iff] at h
  obtain ⟨threshold, hthreshold, h⟩ := h
  obtain ⟨dataOffset, hoffset, h⟩ := Trapping.bind_eq_ok_iff.mp h
  obtain ⟨payment, hpayment, -⟩ := Trapping.bind_eq_ok_iff.mp h
  have hsize := (Trapping.toInt_eq_ok_iff.mp hoffset).1
  exact ⟨(Trapping.toUInt_eq_ok_iff.mp hthreshold).1, (Trapping.toUInt_eq_ok_iff.mp hpayment).1,
    by omega⟩

end GnosisSafe

end SafeWallet
