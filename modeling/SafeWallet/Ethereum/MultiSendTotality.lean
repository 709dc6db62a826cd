/-
# Reading arbitrary bytes as a batch

The decoders of both layouts remove what they read without looking at what is
left. A batch can be read exactly when its bytes are framed: complete calls one
after the other, up to the end or up to an operation that is not known. Anything
else stops the program.
-/

import SafeWallet.Ethereum.MultiSendCodec

namespace SafeWallet

namespace MultiSend

open ContractProxy

/-! ## Framed bytes -/

/-- How a layout delimits its calls. -/
structure Layout where
  /-- The bytes start with an operation that is not known. -/
  Unknown : Data → Prop
  /-- The bytes start with a complete call and go on with others. -/
  Call : Data → Data → Prop

/-- Complete calls up to the end of the bytes or up to an unknown operation. -/
inductive Layout.Framed (layout : Layout) : Data → Prop
  | done : Framed layout []
  | stops {bytes : Data} (h : layout.Unknown bytes) : Framed layout bytes
  | next {bytes rest : Data} (h : layout.Call bytes rest) (hrest : Framed layout rest) :
      Framed layout bytes

/-- A length completed to whole words. -/
def wholeWords (count : ℕ) : ℕ := (count + 31) / 32 * 32

/-- A call in whole words: four words, the length of the data and the data itself,
completed to words. Data that is announced longer than the batch ends with it. -/
structure PaddedCall (bytes rest : Data) : Prop where
  header : 160 ≤ bytes.length
  operation : decodeUInt bytes < 2
  count : decodeUInt (bytes.drop 128) < 2 ^ 63
  complete : wholeWords (min (decodeUInt (bytes.drop 128)) (bytes.length - 160)) ≤
    bytes.length - 160
  rest : rest = bytes.drop
    (160 + wholeWords (min (decodeUInt (bytes.drop 128)) (bytes.length - 160)))

/-- The layout of version 1. -/
def layoutV1 : Layout where
  Unknown bytes := 32 ≤ bytes.length ∧ 2 ≤ decodeUInt bytes ∧ decodeUInt bytes < 2 ^ 63
  Call := PaddedCall

/-- A packed call: one byte, an address, the value, the length of the data and
the data. -/
structure PackedCall (bytes rest : Data) : Prop where
  header : 85 ≤ bytes.length
  operation : Data.toNat (bytes.take 1) < 2
  count : decodeUInt (bytes.drop 53) < 2 ^ 63
  complete : decodeUInt (bytes.drop 53) ≤ bytes.length - 85
  rest : rest = bytes.drop (85 + decodeUInt (bytes.drop 53))

/-- The layout of version 2. -/
def layoutV2 : Layout where
  Unknown bytes := 1 ≤ bytes.length ∧ 2 ≤ Data.toNat (bytes.take 1)
  Call := PackedCall

/-- The call data a layout can be read from: not a batch at all, or an offset, a
length that fits a machine integer, and framed bytes. -/
def Layout.Readable (layout : Layout) (kit : EthereumKit) (data : Data) : Prop :=
  let selector := method kit multiSendSignature
  selector <+: data →
    let input := data.drop (selector.length + 32)
    selector.length + 32 ≤ data.length ∧ decodeUInt input < 2 ^ 63 ∧
      layout.Framed ((input.drop 32).take (decodeUInt input))

/-! ## Rounds -/

/-- A round answers as its layout says, and a call takes at least a byte. -/
structure Round.Follows (round : Round) (layout : Layout) : Prop where
  stops : ∀ bytes, round bytes = .ok none ↔ layout.Unknown bytes
  next : ∀ bytes rest,
    (∃ transaction, round bytes = .ok (some (transaction, rest))) ↔ layout.Call bytes rest
  shorter : ∀ bytes rest, layout.Call bytes rest → rest.length < bytes.length

theorem ofRawValue_eq_none_iff (n : ℕ) : MultiSendOperation.ofRawValue n = none ↔ 2 ≤ n := by
  match n with
  | 0 => simp [MultiSendOperation.ofRawValue]
  | 1 => simp [MultiSendOperation.ofRawValue]
  | n + 2 => simp [MultiSendOperation.ofRawValue]

theorem length_encodeBytes (value : Data) :
    (encodeBytes value).length = 32 + wholeWords value.length := by
  obtain ⟨zeros, hbytes, hlength⟩ := encodeBytes_spec value
  rw [hbytes, List.length_append, length_encodeUInt, List.length_append, hlength, wholeWords]

theorem exists_of_ofRawValue {n : ℕ} (h : n < 2) :
    ∃ operation, MultiSendOperation.ofRawValue n = some operation := by
  apply Option.ne_none_iff_exists'.mp
  rw [Ne, ofRawValue_eq_none_iff]
  omega

theorem roundV1_follows : roundV1.Follows layoutV1 where
  stops := by
    intro bytes
    simp only [roundV1, layoutV1, Trapping.bind_eq_ok_iff, Trapping.removeFirst_eq_ok_iff,
      Trapping.toInt_eq_ok_iff]
    constructor
    · rintro ⟨_, ⟨hword, -⟩, _, ⟨hint, rfl⟩, h⟩
      split at h
      · rename_i hunknown
        exact ⟨hword, (ofRawValue_eq_none_iff _).mp hunknown, hint⟩
      · simp [Trapping.bind_eq_ok_iff] at h
    · rintro ⟨hword, hunknown, hint⟩
      refine ⟨_, ⟨hword, rfl⟩, _, ⟨hint, rfl⟩, ?_⟩
      rw [(ofRawValue_eq_none_iff _).mpr hunknown]
      rfl
  next := by
    intro bytes rest
    simp only [roundV1, layoutV1, decodeBytes, Trapping.bind_eq_ok_iff,
      Trapping.removeFirst_eq_ok_iff, Trapping.toInt_eq_ok_iff]
    constructor
    · rintro ⟨transaction, _, ⟨hword, rfl⟩, _, ⟨hint, rfl⟩, h⟩
      split at h
      · cases h
      · rename_i operation hoperation
        have hknown : decodeUInt bytes < 2 := by
          by_contra hlarge
          rw [(ofRawValue_eq_none_iff _).mpr (by omega)] at hoperation
          cases hoperation
        simp only [Trapping.bind_eq_ok_iff, Trapping.removeFirst_eq_ok_iff,
          Trapping.toInt_eq_ok_iff, List.drop_drop, List.length_drop, Nat.reduceAdd] at h
        obtain ⟨_, ⟨h₂, rfl⟩, _, ⟨h₃, rfl⟩, _, ⟨h₄, rfl⟩, _, ⟨_, ⟨hcount, rfl⟩, hdata⟩, _,
          ⟨hcomplete, rfl⟩, h⟩ := h
        cases h
        cases hdata
        simp only [length_encodeBytes, List.length_take, List.length_drop, List.drop_drop,
          Nat.reduceAdd] at hcount hcomplete ⊢
        refine ⟨by omega, hknown, hcount, by omega, ?_⟩
        rw [← Nat.add_assoc]
    · rintro ⟨hheader, hknown, hcount, hcomplete, rfl⟩
      obtain ⟨operation, hoperation⟩ := exists_of_ofRawValue hknown
      refine ⟨⟨operation, decodeAddress (bytes.drop 32), (decodeUInt (bytes.drop 64) : ℤ),
        (bytes.drop 160).take (decodeUInt (bytes.drop 128))⟩, _, ⟨by omega, rfl⟩, _,
        ⟨by omega, rfl⟩, ?_⟩
      simp only [hoperation]
      rw [Trapping.removeFirst_of_le (by simp; omega), Trapping.ok_bind,
        Trapping.removeFirst_of_le (by simp; omega), Trapping.ok_bind,
        Trapping.removeFirst_of_le (by simp; omega), Trapping.ok_bind]
      simp only [List.drop_drop, Nat.reduceAdd, Trapping.toInt_of_lt hcount, Trapping.ok_bind,
        Trapping.pure_eq_ok]
      rw [Trapping.removeFirst_of_le (by simp [length_encodeBytes]; omega), Trapping.ok_bind,
        length_encodeBytes, List.drop_drop, List.length_take, List.length_drop, ← Nat.add_assoc]
  shorter := by
    rintro bytes rest ⟨hheader, -, -, -, rfl⟩
    rw [List.length_drop]
    omega

/-- One byte is cut off like any other front. -/
theorem firstByte_eq (bytes : Data) :
    (if 1 < bytes.length then bytes.take 1 else bytes) = bytes.take 1 := by
  split
  · rfl
  · rename_i hshort
    rw [List.take_of_length_le (by omega)]

theorem roundV2_follows : roundV2.Follows layoutV2 where
  stops := by
    intro bytes
    simp only [roundV2, layoutV2, firstByte_eq, Trapping.bind_eq_ok_iff,
      Trapping.removeFirst_eq_ok_iff]
    constructor
    · rintro ⟨_, ⟨hbyte, -⟩, h⟩
      split at h
      · rename_i hunknown
        exact ⟨hbyte, (ofRawValue_eq_none_iff _).mp hunknown⟩
      · simp [Trapping.bind_eq_ok_iff] at h
    · rintro ⟨hbyte, hunknown⟩
      refine ⟨_, ⟨hbyte, rfl⟩, ?_⟩
      rw [(ofRawValue_eq_none_iff _).mpr hunknown]
      rfl
  next := by
    intro bytes rest
    simp only [roundV2, layoutV2, firstByte_eq, Trapping.bind_eq_ok_iff,
      Trapping.removeFirst_eq_ok_iff]
    constructor
    · rintro ⟨transaction, _, ⟨hbyte, rfl⟩, h⟩
      split at h
      · cases h
      · rename_i operation hoperation
        have hknown : Data.toNat (bytes.take 1) < 2 := by
          by_contra hlarge
          rw [(ofRawValue_eq_none_iff _).mpr (by omega)] at hoperation
          cases hoperation
        simp only [Trapping.bind_eq_ok_iff, Trapping.removeFirst_eq_ok_iff,
          Trapping.toInt_eq_ok_iff] at h
        obtain ⟨_, ⟨h₂, rfl⟩, _, ⟨h₃, rfl⟩, _, ⟨h₄, rfl⟩, _, ⟨hcount, rfl⟩, _,
          ⟨hcomplete, rfl⟩, h⟩ := h
        cases h
        simp only [List.length_drop, List.drop_drop, Nat.reduceAdd] at h₄ hcount hcomplete ⊢
        exact ⟨by omega, hknown, hcount, by omega, rfl⟩
    · rintro ⟨hheader, hknown, hcount, hcomplete, rfl⟩
      obtain ⟨operation, hoperation⟩ := exists_of_ofRawValue hknown
      refine ⟨⟨operation, decodePackedAddress (bytes.drop 1), (decodeUInt (bytes.drop 21) : ℤ),
        (bytes.drop 85).take (decodeUInt (bytes.drop 53))⟩, _, ⟨by omega, rfl⟩, ?_⟩
      simp only [hoperation]
      rw [Trapping.removeFirst_of_le (by simp; omega), Trapping.ok_bind,
        Trapping.removeFirst_of_le (by simp; omega), Trapping.ok_bind,
        Trapping.removeFirst_of_le (by simp; omega), Trapping.ok_bind]
      simp only [List.drop_drop, Nat.reduceAdd, Trapping.toInt_of_lt hcount, Trapping.ok_bind]
      rw [Trapping.removeFirst_of_le (by simp; omega), Trapping.ok_bind, List.drop_drop]
      rfl
  shorter := by
    rintro bytes rest ⟨hheader, -, -, -, rfl⟩
    rw [List.length_drop]
    omega

/-! ## Whole batches -/

section Rounds

variable {round : Round} {layout : Layout}

/-- What the loop needs of its first round. -/
theorem decodeRounds_cons_ok_iff (hround : round.Follows layout) (fuel : ℕ) (byte : UInt8)
    (bytes : Data) :
    (∃ result, decodeRounds round (fuel + 1) (byte :: bytes) = .ok result) ↔
      layout.Unknown (byte :: bytes) ∨ ∃ rest, layout.Call (byte :: bytes) rest ∧
        ∃ result, decodeRounds round fuel rest = .ok result := by
  constructor
  · rintro ⟨result, h⟩
    simp only [decodeRounds, Trapping.bind_eq_ok_iff] at h
    obtain ⟨first, hfirst, h⟩ := h
    cases first with
    | none => exact .inl ((hround.stops _).mp hfirst)
    | some first =>
        obtain ⟨transaction, rest⟩ := first
        simp only [Trapping.bind_eq_ok_iff] at h
        obtain ⟨others, hothers, -⟩ := h
        exact .inr ⟨rest, (hround.next _ _).mp ⟨transaction, hfirst⟩, others, hothers⟩
  · rintro (hunknown | ⟨rest, hcall, others, hothers⟩)
    · refine ⟨none, ?_⟩
      simp only [decodeRounds, (hround.stops _).mpr hunknown, Trapping.ok_bind]
      rfl
    · obtain ⟨transaction, hfirst⟩ := (hround.next _ _).mpr hcall
      simp only [decodeRounds, hfirst, hothers, Trapping.ok_bind]
      cases others with
      | none => exact ⟨none, rfl⟩
      | some others => exact ⟨some (transaction :: others), rfl⟩

/-- The loop comes to its end exactly on framed bytes. -/
theorem decodeRounds_ok_iff (hround : round.Follows layout) (fuel : ℕ) (bytes : Data)
    (hfuel : bytes.length ≤ fuel) :
    (∃ result, decodeRounds round fuel bytes = .ok result) ↔ layout.Framed bytes := by
  induction fuel generalizing bytes with
  | zero =>
      obtain rfl : bytes = [] := List.length_eq_zero_iff.mp (by omega)
      exact ⟨fun _ => .done, fun _ => ⟨some [], rfl⟩⟩
  | succ fuel ih =>
      cases bytes with
      | nil => exact ⟨fun _ => .done, fun _ => ⟨some [], rfl⟩⟩
      | cons byte bytes =>
          have hrest : ∀ rest, layout.Call (byte :: bytes) rest → rest.length ≤ fuel := by
            intro rest hcall
            have hshorter := hround.shorter _ _ hcall
            omega
          rw [decodeRounds_cons_ok_iff hround]
          constructor
          · rintro (hunknown | ⟨rest, hcall, hresult⟩)
            · exact .stops hunknown
            · exact .next hcall ((ih rest (hrest rest hcall)).mp hresult)
          · intro hframed
            cases hframed with
            | stops hunknown => exact .inl hunknown
            | next hcall hframed =>
                exact .inr ⟨_, hcall, (ih _ (hrest _ hcall)).mpr hframed⟩

/-- The number of bytes is enough rounds: with more of them the loop answers the
same. -/
theorem decodeRounds_fuel (hround : round.Follows layout) (fuel : ℕ) (bytes : Data)
    (hfuel : bytes.length ≤ fuel) :
    decodeRounds round (fuel + 1) bytes = decodeRounds round fuel bytes := by
  induction fuel generalizing bytes with
  | zero =>
      obtain rfl : bytes = [] := List.length_eq_zero_iff.mp (by omega)
      rfl
  | succ fuel ih =>
      cases bytes with
      | nil => rfl
      | cons byte bytes =>
          simp only [decodeRounds]
          cases hfirst : round (byte :: bytes) with
          | error trap => rfl
          | ok first =>
              cases first with
              | none => rfl
              | some first =>
                  obtain ⟨transaction, rest⟩ := first
                  have hshorter := hround.shorter _ _ ((hround.next _ _).mp ⟨transaction, hfirst⟩)
                  simp only [Trapping.ok_bind]
                  rw [ih rest (by omega)]

theorem decodeArguments_ok_iff (hround : round.Follows layout) (kit : EthereumKit) (data : Data) :
    (∃ result, decodeArguments round kit data = .ok result) ↔ layout.Readable kit data := by
  by_cases hselector : method kit multiSendSignature <+: data
  · have hlength := hselector.length_le
    simp only [decodeArguments, Layout.Readable, List.isPrefixOf_iff_prefix.mpr hselector,
      ↓reduceIte, hselector, forall_const, Trapping.removeFirst_of_le hlength, Trapping.ok_bind]
    constructor
    · rintro ⟨result, h⟩
      simp only [decodeBytes, Trapping.bind_eq_ok_iff, Trapping.removeFirst_eq_ok_iff,
        Trapping.toInt_eq_ok_iff, List.length_drop] at h
      obtain ⟨_, ⟨hoffset, rfl⟩, _, ⟨_, ⟨hcount, rfl⟩, hbytes⟩, h⟩ := h
      cases hbytes
      rw [List.drop_drop] at hcount h
      exact ⟨by omega, hcount, (decodeRounds_ok_iff hround _ _ le_rfl).mp ⟨result, h⟩⟩
    · rintro ⟨hoffset, hcount, hframed⟩
      rw [Trapping.removeFirst_of_le (by rw [List.length_drop]; omega), Trapping.ok_bind,
        decodeBytes, List.drop_drop, Trapping.toInt_of_lt hcount]
      exact (decodeRounds_ok_iff hround _ _ le_rfl).mpr hframed
  · have hother : (method kit multiSendSignature).isPrefixOf data = false := by
      rw [← Bool.not_eq_true, List.isPrefixOf_iff_prefix]
      exact hselector
    simp only [decodeArguments, Layout.Readable, hother, hselector, Bool.false_eq_true,
      ↓reduceIte, IsEmpty.forall_iff, iff_true]
    exact ⟨none, rfl⟩

end Rounds

/-- Either decoder returns exactly on the call data its layout can be read from. -/
theorem decodeMultiSendArguments_ok_iff (kit : EthereumKit) (data : Data) :
    ((∃ result, decodeMultiSendArgumentsV1 kit data = .ok result) ↔ layoutV1.Readable kit data) ∧
    ((∃ result, decodeMultiSendArgumentsV2 kit data = .ok result) ↔ layoutV2.Readable kit data) :=
  ⟨decodeArguments_ok_iff roundV1_follows kit data, decodeArguments_ok_iff roundV2_follows kit data⟩

/-- The identifier of the method and nothing behind it. -/
def bareSelector : Data := [0x8d, 0x80, 0xff, 0x0a]

theorem bareSelector_stops :
    decodeMultiSendArgumentsV1 batchKit bareSelector = .error .removeFirst ∧
    decodeMultiSendArgumentsV2 batchKit bareSelector = .error .removeFirst := by
  decide +kernel

end MultiSend

end SafeWallet
