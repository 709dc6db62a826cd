/-
# Tokens and token transfers

A token is identified by the text of its contract's address, Ether by the zero
address. A call that transfers a token is recognised from its data alone; the
recogniser removes the two argument words before it looks at what is left, so
data that ends inside an argument stops the program.
-/

import SafeWallet.Ethereum.ContractProxy

namespace SafeWallet

/-- `Token`. -/
structure Token where
  code : String
  name : String
  decimals : Int64
  address : Address
  logoUrl : String
  deriving DecidableEq, Repr

namespace Token

/-- `Token.id`: the text of the contract's address. -/
def id (token : Token) : String := token.address.value

/-- `Token.Ether`. -/
def Ether : Token := ⟨"ETH", "Ether", 18, Address.zero, ""⟩

end Token

/-- `TokenAmount`, in the smallest units of the token. -/
structure TokenAmount where
  amount : ℤ
  token : Token
  deriving DecidableEq, Repr

/-- `TokenAmount.ether(_:)`. -/
def TokenAmount.ether (amount : ℤ) : TokenAmount := ⟨amount, Token.Ether⟩

namespace ERC20

open ContractProxy

/-- `transferMethodSignature`. -/
def transferMethodSignature : String := "transfer(address,uint256)"

/-- `transfer(to:amount:)`. `BigUInt(amount)` traps on a negative amount. -/
def transfer (kit : EthereumKit) (recipient : Address) (amount : ℤ) : Trapping Data :=
  if 0 ≤ amount then
    .ok (invocation kit transferMethodSignature
      [encodeAddress recipient, encodeUInt amount.toNat])
  else .error .integerOverflow

/-- `decodedTransfer(from:)`. -/
def decodedTransfer (kit : EthereumKit) (data : Data) : Trapping (Option (Address × ℤ)) :=
  let head := invocation kit transferMethodSignature []
  if data.take head.length = head then do
    let argumentsData ← Trapping.removeFirst head.length data
    let recipient := decodeAddress argumentsData
    let argumentsData ← Trapping.removeFirst 32 argumentsData
    let amount := decodeUInt argumentsData
    let argumentsData ← Trapping.removeFirst 32 argumentsData
    return if argumentsData = [] then some (recipient, (amount : ℤ)) else none
  else
    return none

variable (kit : EthereumKit) (data : Data)

/-- The data starts like a token transfer. -/
def HasTransferHead : Prop :=
  data.take (method kit transferMethodSignature).length = method kit transferMethodSignature

instance : Decidable (HasTransferHead kit data) :=
  inferInstanceAs (Decidable (_ = _))

/-- The data starts like a token transfer and ends inside its arguments. -/
def IsTruncatedTransfer : Prop :=
  HasTransferHead kit data ∧ data.length < (method kit transferMethodSignature).length + 64

instance : Decidable (IsTruncatedTransfer kit data) :=
  inferInstanceAs (Decidable (_ ∧ _))

/-- The data is a token transfer with exactly its two arguments. -/
def IsTransfer : Prop :=
  HasTransferHead kit data ∧ data.length = (method kit transferMethodSignature).length + 64

instance : Decidable (IsTransfer kit data) :=
  inferInstanceAs (Decidable (_ ∧ _))

/-- The argument words of a token transfer. -/
def transferArguments : Address × ℤ :=
  let argumentsData := data.drop (method kit transferMethodSignature).length
  (decodeAddress argumentsData, (decodeUInt (argumentsData.drop 32) : ℤ))

/-- The recogniser in closed form: it stops the program on truncated transfers,
reads complete ones and passes over everything else. -/
theorem decodedTransfer_eq :
    decodedTransfer kit data =
      if IsTruncatedTransfer kit data then .error .removeFirst
      else .ok (if IsTransfer kit data then some (transferArguments kit data) else none) := by
  set size := (method kit transferMethodSignature).length with hsize
  have hhead : invocation kit transferMethodSignature [] = method kit transferMethodSignature := by
    simp [invocation]
  unfold decodedTransfer
  simp only [hhead, IsTruncatedTransfer, IsTransfer, HasTransferHead, ← hsize]
  by_cases htake : data.take size = method kit transferMethodSignature
  · have hle : size ≤ data.length := by
      have := congrArg List.length htake
      rw [List.length_take, ← hsize] at this
      omega
    simp only [htake, ↓reduceIte, true_and, Trapping.removeFirst, List.length_drop,
      if_neg (Nat.not_lt.mpr hle), Trapping.ok_bind, List.drop_drop, Trapping.pure_eq_ok]
    by_cases hshort : data.length < size + 64
    · rw [if_pos hshort]
      by_cases hfirst : data.length - size < 32
      · simp [hfirst]
      · rw [if_neg hfirst, Trapping.ok_bind, List.length_drop, if_pos (by omega)]
        rfl
    · rw [if_neg hshort, if_neg (by omega), Trapping.ok_bind, List.length_drop,
        if_neg (by omega), Trapping.ok_bind, List.drop_drop]
      have hend : data.drop (size + 32 + 32) = [] ↔ data.length = size + 64 := by
        rw [List.drop_eq_nil_iff]
        omega
      simp only [hend, transferArguments, ← hsize, List.drop_drop]
  · simp [htake]

/-- Complete transfers are not truncated. -/
theorem IsTransfer.not_isTruncatedTransfer {kit : EthereumKit} {data : Data}
    (h : IsTransfer kit data) : ¬ IsTruncatedTransfer kit data := by
  rintro ⟨-, hlt⟩
  have := h.2
  omega

end ERC20

end SafeWallet
