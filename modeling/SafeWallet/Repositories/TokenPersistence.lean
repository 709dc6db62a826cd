/-
# Tokens in the database

The texts of a token come from its contract and are stored without being escaped. A token
survives storage if its texts leave the separators where they are; otherwise the amount
that holds it is not read back, and a transaction that has left the draft cannot be loaded
without one. A stored text that is no token may stop the program by itself.
-/

import SafeWallet.Repositories.TransactionRow

namespace SafeWallet

namespace DBTransactionRepository

variable {kit : TextKit} {token : Token} {amount : ℤ} {tx : Transaction} {value : List Char}

/-! ## Texts that are stored -/

/-- Only the texts of the token decide whether an amount is read back from its column. -/
theorem stored_iff {amount : TokenAmount} (haddress : amount.token.address.WellFormed) :
    Stored kit amount ↔ amount.Storable kit ∧ '\x00' ∉ amount.token.code.toList ∧
      '\x00' ∉ amount.token.name.toList ∧ '\x00' ∉ amount.token.logoUrl.toList := by
  constructor
  · intro h
    have hnul := h.no_nul
    simp only [TokenAmount.serialized, Token.serialized, Token.parts, Separated.joined,
      List.mem_append, not_or] at hnul
    obtain ⟨-, -, hcode, -, hname, -, -, -, -, -, hlogoUrl⟩ := hnul
    exact ⟨h.storable, hcode, hname, hlogoUrl⟩
  · rintro ⟨hstorable, hcode, hname, hlogoUrl⟩
    refine ⟨hstorable, fun hmem => ?_⟩
    rcases nul_mem_serialized haddress hmem with hmem | hmem | hmem
    · exact hcode hmem
    · exact hname hmem
    · exact hlogoUrl hmem

/-- A text without a character of a separator, without a NUL and that attaches to nothing. -/
structure Clean (kit : TextKit) (text : List Char) : Prop where
  tilde : '~' ∉ text
  equals : '=' ∉ text
  nul : '\x00' ∉ text
  free : Separated.Free kit.combining text

theorem Clean.inner {text : List Char} (h : Clean kit text) :
    Token.Inner kit Token.separator text '~' :=
  ⟨Separated.unseparated_of_not_mem (by decide) h.tilde,
    fun hlast => h.tilde (List.mem_of_getLast? hlast)⟩

theorem Clean.unseparated {text : List Char} (h : Clean kit text) :
    Separated.Unseparated kit.combining TokenAmount.separator text :=
  Separated.unseparated_of_not_mem (c := '=') (by decide) h.equals

/-- Tokens with clean texts are stored in any amount. -/
theorem stored_of_clean {amount : TokenAmount} (haddress : amount.token.address.WellFormed)
    (hcode : Clean kit amount.token.code.toList) (hname : Clean kit amount.token.name.toList)
    (hlogoUrl : Clean kit amount.token.logoUrl.toList) : Stored kit amount := by
  have htoken : amount.token.Storable kit :=
    ⟨hcode.inner, hname.inner, hname.free, hlogoUrl.inner.unseparated, hlogoUrl.free⟩
  exact (stored_iff haddress).mpr ⟨⟨htoken, hcode.unseparated, hcode.free, hname.unseparated,
    hlogoUrl.unseparated⟩, hcode.nul, hname.nul, hlogoUrl.nul⟩

theorem Clean.of_plain {text : List Char} (h : Plain text) : Clean kit text :=
  ⟨h.not_mem rfl, h.not_mem rfl, h.not_mem rfl, Token.free_of_plain h⟩

theorem plain_of_all {text : List Char}
    (h : (text.all fun c => c.isAlphanum || c == '-') = true) : Plain text := by
  intro c hc
  simpa using List.all_eq_true.mp h c hc

/-- Ether is stored. -/
theorem stored_ether (kit : TextKit) (amount : ℤ) : Stored kit (TokenAmount.ether amount) := by
  have haddress : Token.Ether.address.WellFormed := Address.not_hasLetters_zero.1
  have hcode : Plain Token.Ether.code.toList := plain_of_all (by decide)
  have hname : Plain Token.Ether.name.toList := plain_of_all (by decide)
  have hlogoUrl : Plain Token.Ether.logoUrl.toList := plain_of_all (by decide)
  exact stored_of_clean haddress (.of_plain hcode) (.of_plain hname) (.of_plain hlogoUrl)

/-! ## Tokens survive -/

/-- The token is written and read again, alone, in an amount and in a transaction, and the
stored text is read. -/
structure Survives (kit : TextKit) (token : Token) (amount : ℤ) (tx : Transaction)
    (value : List Char) : Prop where
  sameToken : Token.ofText kit token.serialized = .ok (some token)
  sameAmount : TokenAmount.ofText kit (TokenAmount.serialized ⟨amount, token⟩) =
    .ok (some ⟨amount, token⟩)
  readsToken : ∃ read, Token.ofText kit value = .ok read
  readsAmount : ∃ read, TokenAmount.ofText kit value = .ok read
  reloads : Reloads kit { tx with amount := some ⟨amount, token⟩ }

/-- The amount of a transaction can be exchanged for another that is stored. -/
theorem Persistent.withAmount {amount : TokenAmount} (h : Persistent kit tx) :
    Persistent kit { tx with amount := some amount } ↔ Stored kit amount := by
  constructor
  · exact fun h => h.amount _ rfl
  · intro hamount
    have hready : Ready tx.status { tx with amount := some amount } := by
      refine ⟨fun hstatus => ?_, h.ready.transactionHash⟩
      obtain ⟨hsender, hrecipient, -, hfee⟩ := h.ready.complete hstatus
      exact ⟨hsender, hrecipient, rfl, hfee⟩
    refine { h with amount := ?_, ready := hready }
    rintro _ ⟨⟩
    exact hamount

theorem WellFormedAddresses.withAmount {amount : TokenAmount} (h : WellFormedAddresses tx)
    (haddress : amount.token.address.WellFormed) :
    WellFormedAddresses { tx with amount := some amount } := by
  refine { h with amount := ?_ }
  rintro _ ⟨⟩
  exact haddress

/-- A token survives exactly if its texts leave the separators of both formats where they are
and have no NUL, and a text is read exactly if an address stands where it is taken for one and
a second part where it is taken for an amount. -/
theorem survives_iff (haddress : token.address.WellFormed) (h : WellFormedAddresses tx)
    (hpersistent : Persistent kit tx) :
    Survives kit token amount tx value ↔
      (TokenAmount.Storable kit ⟨amount, token⟩ ∧ '\x00' ∉ token.code.toList ∧
        '\x00' ∉ token.name.toList ∧ '\x00' ∉ token.logoUrl.toList) ∧
      Token.Readable kit value ∧ TokenAmount.Readable kit value := by
  have hreloads : Reloads kit { tx with amount := some ⟨amount, token⟩ } ↔
      Stored kit ⟨amount, token⟩ :=
    (reloads_iff (h.withAmount haddress)).trans hpersistent.withAmount
  have hstored := @stored_iff kit ⟨amount, token⟩ haddress
  rw [← Token.ofText_ok_iff, ← TokenAmount.ofText_ok_iff, ← hstored]
  constructor
  · exact fun h => ⟨hreloads.mp h.reloads, h.readsToken, h.readsAmount⟩
  · rintro ⟨hamount, hreadsToken, hreadsAmount⟩
    exact ⟨(Token.ofText_serialized_iff haddress).mpr hamount.storable.token,
      (TokenAmount.ofText_serialized_iff haddress).mpr hamount.storable, hreadsToken,
      hreadsAmount, hreloads.mpr hamount⟩

/-- What is lost in a column stops the load of every transaction that has left the draft. -/
theorem not_loaded_of_lost_amount {now : Date} (hstatus : tx.status ≠ .draft)
    (hlost : nextAmount kit (row tx).amount = .ok none) :
    ∀ loaded, transactionFromResultSet kit (row tx) now ≠ .ok (some loaded) := by
  intro loaded hload
  obtain ⟨columns, hcolumns, hready, -⟩ := load_row_eq_some_iff.mp hload
  have hnone : columns.amount = none := Except.ok.inj (hcolumns.amount.symm.trans hlost)
  have hamount : columns.amount.isSome := (hready.complete hstatus).amount
  rw [hnone] at hamount
  cases hamount

/-! ## A token whose code holds a separator -/

theorem marks_ascii (c : Char) (hc : c.toNat < 128) :
    (0x300 ≤ c.toNat && c.toNat ≤ 0x36f) = false := by
  rw [Bool.and_eq_false_iff]
  exact .inl (decide_eq_false (by omega))

/-- Only the combining diacritical marks attach, and big integers are read like others. -/
def marks : TextKit where
  combining c := 0x300 ≤ c.toNat && c.toNat ≤ 0x36f
  combining_ascii := marks_ascii
  integer := Decimal.integer
  integer_text := Decimal.integer_text
  integer_digits _ _ := Decimal.mem_of_integer

/-- A transfer of Ether that waits for signatures. -/
def signingTransfer : Transaction :=
  { Transaction.new "T" .transfer ⟨"0x0", "W"⟩ 1 with
    status := .signing
    sender := some Address.zero
    recipient := some Address.zero
    amount := some (.ether 1)
    fee := some (.ether 2) }

/-- A token with the code and the name that its contract gives. -/
def tokenNamed (code name : String) : Token := ⟨code, name, 18, Address.zero, ""⟩

theorem signingTransfer_addresses : WellFormedAddresses signingTransfer := by
  have hzero := Address.not_hasLetters_zero.1
  constructor
  all_goals
    rintro _ ⟨⟩
    try exact hzero

theorem signingTransfer_persistent (kit : TextKit) : Persistent kit signingTransfer := by
  constructor
  case amount =>
    rintro _ ⟨⟩
    exact stored_ether kit 1
  case fee =>
    rintro _ ⟨⟩
    exact stored_ether kit 2
  case ready => exact ⟨fun _ => ⟨rfl, rfl, rfl, rfl⟩, fun h => by cases h⟩
  all_goals simp [signingTransfer, Transaction.new, isSubmitted, isProcessed]

theorem namedToken_survives :
    Survives marks (tokenNamed "GNO" "Gnosis") 5 signingTransfer "GNO".toList := by
  have haddress : (tokenNamed "GNO" "Gnosis").address.WellFormed :=
    Address.not_hasLetters_zero.1
  have hcode : Plain (tokenNamed "GNO" "Gnosis").code.toList := plain_of_all (by decide)
  have hname : Plain (tokenNamed "GNO" "Gnosis").name.toList := plain_of_all (by decide)
  have hlogoUrl : Plain (tokenNamed "GNO" "Gnosis").logoUrl.toList := plain_of_all (by decide)
  have hstored : Stored marks ⟨5, tokenNamed "GNO" "Gnosis"⟩ :=
    stored_of_clean haddress (.of_plain hcode) (.of_plain hname) (.of_plain hlogoUrl)
  exact (survives_iff haddress signingTransfer_addresses (signingTransfer_persistent marks)).mpr
    ⟨(stored_iff haddress).mp hstored, Token.ofText_ok_iff.mp ⟨none, by decide⟩,
      TokenAmount.ofText_ok_iff.mp ⟨none, by decide⟩⟩

/-- The token is no longer one, its amount stops the program, and so does the transaction. -/
theorem splitToken_lost :
    Token.ofText marks (tokenNamed "A~~~B" "Split").serialized = .ok none ∧
      (∀ now loaded, transactionFromResultSet marks (row { signingTransfer with
        amount := some ⟨5, tokenNamed "A~~~B" "Split"⟩ }) now ≠ .ok (some loaded)) ∧
      TokenAmount.ofText marks "5".toList = .error .precondition ∧
      ¬Survives marks (tokenNamed "A~~~B" "Split") 5 signingTransfer "GNO".toList := by
  have hlost : Token.ofText marks (tokenNamed "A~~~B" "Split").serialized = .ok none := by decide
  have haddresses : WellFormedAddresses { signingTransfer with
      amount := some ⟨5, tokenNamed "A~~~B" "Split"⟩ } :=
    signingTransfer_addresses.withAmount Address.not_hasLetters_zero.1
  refine ⟨hlost, fun now loaded => ?_, by decide, fun h => ?_⟩
  · exact not_loaded_of_lost_amount (by decide) (by decide) loaded
  · have hkept := h.sameToken
    rw [hlost] at hkept
    cases hkept

end DBTransactionRepository

end SafeWallet
