/-
# An upgrade keeps the wallet database

The tables of a database at any version, upgraded by the migrations that are pending,
have the columns that the repositories declare, and their rows are the old ones: only the
fee estimates are written as texts, discarded transactions are gone, and the names of
wallets with an address are entries of the address book. An upgrade fails only if a wallet
whose name moves has the identifier of an entry, and then the database stays as it was.

The contents of a database are read in one way at every version; each migration leaves
them as they are. Declared defaults do not count as part of a version, because a table
that was created by a repository has none where an altered one does.
-/

import Mathlib.Tactic.IntervalCases
import SafeWallet.Database.WalletMigrations

namespace SafeWallet

/-- A column without its default. -/
def SqlColumn.declared (column : SqlColumn) : SqlColumn := { column with default := .null }

namespace WalletMigrations

variable {numbers : SqlNumbers}

/-! ## Versions -/

/-- The columns of wallets after some of the migrations. -/
def walletColumns (version : ℕ) : List SqlColumn :=
  [column "id" .text .key,
    column "state" .integer .notNull,
    column "owners" .text .notNull,
    column "address" .text,
    column "minimum_deployment_tx_amount" .text,
    column "creation_tx_hash" .text,
    column "confirmation_count" .integer .notNull] ++
  (if 1 ≤ version then [column "fee_payment_token_address" .text] else []) ++
  (if 3 ≤ version then [column "master_copy_address" .text, column "contract_version" .text]
    else []) ++
  (if version = 7 then [column "name" .text] else []) ++
  (if 9 ≤ version then [column "type" .integer .notNull] else [])

/-- The columns of transactions. -/
def transactionColumns (version : ℕ) : List SqlColumn :=
  transactionFields (if version < 5 then [column "wallet_id" .text .notNull] else [])
    (if version < 4 then .integer else .text)

/-- The columns of token list items. -/
def tokenColumns (version : ℕ) : List SqlColumn :=
  [column "id" .text .key,
    column "token" .text .notNull,
    column "status" .text .notNull,
    column "sorting_id" .integer,
    column "updated" .text .notNull] ++
  (if 2 ≤ version then [column "can_pay_transaction_fee" .boolean] else [])

/-- There is a table with these columns. -/
def Stored (db : SqlDatabase numbers) (name : String) (columns : List SqlColumn) : Prop :=
  ∃ table, db name = some table ∧ table.columns.map SqlColumn.declared = columns

/-- A database as an app has left it that knew some of the migrations, and perhaps no address
book. -/
structure Installed (version : ℕ) (db : SqlDatabase numbers) : Prop where
  wallets : Stored db "tbl_wallets" (walletColumns version)
  transactions : Stored db "tbl_transactions" (transactionColumns version)
  tokens : Stored db "tbl_token_list_items" (tokenColumns version)
  book : db "tbl_address_book" = none ∨
    Stored db "tbl_address_book" DBAddressBookRepository.table.fields
  transactionsFree : db "new_tbl_transactions" = none
  walletsFree : db "tbl_wallets_new" = none

/-- A database after some of the migrations. -/
structure Version (version : ℕ) (db : SqlDatabase numbers) : Prop
    extends Installed version db where
  addressBook : Stored db "tbl_address_book" DBAddressBookRepository.table.fields
  book := .inr addressBook

/-- At the last version, the columns are those of the repositories. -/
theorem columns_final : walletColumns 9 = DBWalletRepository.table.fields ∧
    transactionColumns 9 = DBTransactionRepository.table.fields ∧
      tokenColumns 9 = DBTokenListItemRepository.table.fields := ⟨rfl, rfl, rfl⟩

/-! ## Contents -/

/-- A record: the values under the names of the columns. -/
abbrev Record := String → Option SqlValue

/-- The records of a table. -/
def records (db : SqlDatabase numbers) (name : String) : List Record :=
  match db name with
  | some table => table.records
  | none => []

/-- What a migration puts into a column that was missing. -/
def absent (type : SqlType) : SqlValue := if type = .text then .null else .integer 0

/-- The row of the repository for a record. -/
def read (numbers : SqlNumbers) (fields : List SqlColumn) (record : Record) : List SqlValue :=
  fields.map fun field =>
    numbers.coerce field.type ((record field.name).getD (absent field.type))

/-- A transaction that stays. -/
def Stays (version : ℕ) (record : Record) : Prop :=
  6 ≤ version ∨ record "transaction_status" ≠ some (.integer 6)

instance (version : ℕ) (record : Record) : Decidable (Stays version record) :=
  inferInstanceAs (Decidable (_ ∨ _))

/-- The entry of the address book for a wallet with a name and an address. -/
def entry (record : Record) : Option (List SqlValue) :=
  let name := (record "name").getD (.text "Safe")
  let address := (record "address").getD .null
  if name = .null ∨ address = .null then none
  else some [(record "id").getD .null, name, address, .integer 1]

/-- What the repositories find, or will find. -/
structure WalletContents where
  wallets : List (List SqlValue)
  transactions : List (List SqlValue)
  tokens : List (List SqlValue)
  addressBook : List (List SqlValue)

/-- The contents of a database at some version. -/
def contents (version : ℕ) (db : SqlDatabase numbers) : WalletContents where
  wallets := (records db "tbl_wallets").map (read numbers DBWalletRepository.table.fields)
  transactions := ((records db "tbl_transactions").filter fun record => Stays version record).map
    (read numbers DBTransactionRepository.table.fields)
  tokens := (records db "tbl_token_list_items").map
    (read numbers DBTokenListItemRepository.table.fields)
  addressBook := (records db "tbl_address_book").map
    (read numbers DBAddressBookRepository.table.fields) ++
      if version < 8 then (records db "tbl_wallets").filterMap entry else []

/-! ## Records -/

theorem Stored.of_eq {db db' : SqlDatabase numbers} {name : String} {columns : List SqlColumn}
    (h : Stored db name columns) (heq : db' name = db name) : Stored db' name columns := by
  obtain ⟨table, htable, hcolumns⟩ := h
  exact ⟨table, heq.trans htable, hcolumns⟩

theorem names_of_declared {first second : List SqlColumn}
    (h : first.map SqlColumn.declared = second) :
    first.map SqlColumn.name = second.map SqlColumn.name := by
  rw [← h, List.map_map]
  rfl

/-- A column of a table with given columns. -/
theorem exists_of_declared {first second : List SqlColumn} {column : SqlColumn}
    (h : first.map SqlColumn.declared = second) (hmem : column ∈ second) :
    ∃ old ∈ first, old.name = column.name ∧ old.type = column.type ∧
      old.constraint = column.constraint := by
  rw [← h] at hmem
  obtain ⟨old, hold, rfl⟩ := List.mem_map.mp hmem
  exact ⟨old, hold, rfl, rfl, rfl⟩

section Records

variable {db db' : SqlDatabase numbers} {name : String} {columns : List SqlColumn}
  {record : Record}

theorem records_eq {table : SqlTable numbers} (h : db name = some table) :
    records db name = table.records := by
  rw [records, h]

theorem records_of_eq (h : db' name = db name) : records db' name = records db name := by
  rw [records, records, h]

/-- A record has no value under another name. -/
theorem Stored.record_eq_none (h : Stored db name columns) (hrecord : record ∈ records db name)
    {other : String} (hother : other ∉ columns.map SqlColumn.name) : record other = none := by
  obtain ⟨table, htable, hcolumns⟩ := h
  rw [records_eq htable] at hrecord
  obtain ⟨row, -, rfl⟩ := List.mem_map.mp hrecord
  exact SqlColumn.cell_eq_none (names_of_declared hcolumns ▸ hother)

/-- A record has a fitting value in each of the columns. -/
theorem Stored.record_of_mem (h : Stored db name columns) (hrecord : record ∈ records db name)
    {column : SqlColumn} (hmem : column ∈ columns) :
    ∃ v, record column.name = some v ∧ numbers.coerce column.type v = v ∧
      (column.constraint ≠ .none → v ≠ .null) := by
  obtain ⟨table, htable, hcolumns⟩ := h
  rw [records_eq htable] at hrecord
  obtain ⟨row, hrow, rfl⟩ := List.mem_map.mp hrecord
  obtain ⟨old, hold, hname, htype, hconstraint⟩ := exists_of_declared hcolumns hmem
  obtain ⟨v, hv, hfits, hnull⟩ :=
    SqlColumn.cell_of_fits table.admits.1 (table.admits.2.1 row hrow) hold
  exact ⟨v, hname ▸ hv, htype ▸ hfits, fun h => hnull (hconstraint ▸ h)⟩

/-- The rows of a repository's own table. -/
theorem map_read {table : SqlTable numbers}
    (hcolumns : table.columns.map SqlColumn.declared = columns) :
    table.records.map (read numbers columns) = table.rows := by
  rw [SqlTable.records, List.map_map]
  refine (List.map_congr_left fun row hrow => ?_).trans (List.map_id _)
  rw [Function.comp_apply, read, ← hcolumns, List.map_map]
  refine Eq.trans (List.map_congr_left fun column hmem => ?_)
    (SqlColumn.map_cell table.admits.1 (table.length_eq hrow) .null)
  obtain ⟨v, hv, hfits, -⟩ :=
    SqlColumn.cell_of_fits table.admits.1 (table.admits.2.1 row hrow) hmem
  simp only [Function.comp_apply, SqlColumn.declared, SqlTable.cell, hv, Option.getD_some, hfits]

theorem read_update (fields : List SqlColumn) {column : SqlColumn}
    (hrecord : record column.name = none)
    (hfield : ∀ field ∈ fields, field.name = column.name →
      field.type = column.type ∧ absent column.type = column.default) :
    read numbers fields (Function.update record column.name
      (some (numbers.coerce column.type column.default))) = read numbers fields record := by
  refine List.map_congr_left fun field hmem => ?_
  by_cases hname : field.name = column.name
  · obtain ⟨htype, habsent⟩ := hfield field hmem hname
    rw [hname, Function.update_self, hrecord, Option.getD_some, Option.getD_none, htype,
      SqlNumbers.coerce_coerce, habsent]
  · rw [Function.update_of_ne hname]

/-- What is left of a record in a table that is filled from its table. -/
def restrict (numbers : SqlNumbers) (columns : List SqlColumn) (record : Record) : Record :=
  fun name => (columns.find? fun column => column.name = name).map fun column =>
    numbers.coerce column.type ((record name).getD .null)

theorem read_restrict {fields : List SqlColumn} (hnodup : (columns.map SqlColumn.name).Nodup)
    (hfields : ∀ field ∈ fields,
      (∃ column ∈ columns, column.name = field.name ∧ column.type = field.type) ∧
        (∃ v, record field.name = some v) ∨
      field.name ∉ columns.map SqlColumn.name ∧ record field.name = none) :
    read numbers fields (restrict numbers columns record) = read numbers fields record := by
  refine List.map_congr_left fun field hmem => ?_
  rcases hfields field hmem with ⟨⟨column, hcolumn, hname, htype⟩, v, hv⟩ | ⟨hnotin, hnone⟩
  · have hfind : columns.find? (fun column => column.name = field.name) = some column :=
      hname ▸ SqlColumn.find?_name hnodup hcolumn
    rw [restrict, hfind, Option.map_some, Option.getD_some, hv, Option.getD_some, Option.getD_some,
      htype, SqlNumbers.coerce_coerce]
  · have hfind : columns.find? (fun column => column.name = field.name) = none := by
      rw [List.find?_eq_none]
      intro column hcolumn heq
      exact hnotin (List.mem_map.mpr ⟨column, hcolumn, by simpa using heq⟩)
    rw [restrict, hfind, hnone, Option.map_none]

end Records

/-! ## What the statements do to records -/

section Statements

variable {db : SqlDatabase numbers} {name : String} {columns : List SqlColumn}

theorem addColumn_records (h : Stored db name columns) (column : SqlColumn)
    (hnew : column.name ∉ columns.map SqlColumn.name)
    (hconstraint : column.constraint = .none ∨
      column.constraint = .notNull ∧ column.default ≠ .null) :
    ∃ db', SqlStatement.run db (.addColumn name column) = some db' ∧
      Stored db' name (columns ++ [column.declared]) ∧
      records db' name = (records db name).map (fun record => Function.update record column.name
        (some (numbers.coerce column.type column.default))) ∧
      ∀ other ≠ name, db' other = db other := by
  obtain ⟨table, htable, hcolumns⟩ := h
  obtain ⟨table', hrun, hcolumns', hrecords⟩ := SqlStatement.addColumn_run htable
    (names_of_declared hcolumns ▸ hnew) hconstraint
  refine ⟨_, hrun, ⟨table', Function.update_self .., ?_⟩, ?_, fun other hother =>
    Function.update_of_ne hother ..⟩
  · rw [hcolumns', List.map_append, hcolumns]
    rfl
  · rw [records_eq (Function.update_self ..), records_eq htable, hrecords]

/-- The columns can be filled from columns as declared. -/
def Fills (fields columns : List SqlColumn) : Prop :=
  (columns.map SqlColumn.name).Nodup ∧ ∀ column ∈ columns, ∃ old ∈ fields,
    old.name = column.name ∧ (column.constraint ≠ .none → old.constraint ≠ .none) ∧
      (column.constraint = .key → old.constraint = .key ∧ old.type = column.type)

instance (fields columns : List SqlColumn) : Decidable (Fills fields columns) :=
  inferInstanceAs (Decidable (_ ∧ _))

theorem rebuild_records {temporary : String} {fields : List SqlColumn}
    (h : Stored db name fields) (hfills : Fills fields columns)
    (hdeclared : columns.map SqlColumn.declared = columns) (hfree : db temporary = none) :
    ∃ db', SqlStatement.runAll (SqlStatement.rebuild temporary columns name) db = (db', true) ∧
      Stored db' name columns ∧
      records db' name = (records db name).map (restrict numbers columns) ∧
      ∀ other ≠ name, db' other = db other := by
  obtain ⟨table, htable, hcolumns⟩ := h
  have hfilled : SqlStatement.FilledFrom columns table := by
    refine ⟨hfills.1, fun column hmem => ?_⟩
    obtain ⟨field, hfield, hname, hnull, hkey⟩ := hfills.2 column hmem
    obtain ⟨old, hold, holdName, holdType, holdConstraint⟩ := exists_of_declared hcolumns hfield
    refine ⟨old, hold, holdName.trans hname, fun hne => holdConstraint ▸ hnull hne, ?_⟩
    exact fun heq => ⟨holdConstraint.trans (hkey heq).1, holdType.trans (hkey heq).2⟩
  obtain ⟨table', hrun, hcolumns', hrows⟩ := SqlStatement.rebuild_run hfilled htable hfree
  refine ⟨_, hrun, ⟨table', Function.update_self .., ?_⟩, ?_, fun other hother =>
    Function.update_of_ne hother ..⟩
  · rw [hcolumns', hdeclared]
  · rw [records_eq (Function.update_self ..), records_eq htable, SqlTable.records,
      SqlTable.records, hrows, List.map_map, List.map_map]
    refine List.map_congr_left fun row _ => funext fun other => ?_
    rw [Function.comp_apply, SqlTable.cell, hcolumns', SqlStatement.refilled, SqlColumn.cell_map,
      Function.comp_apply, restrict]
    refine Option.map_congr fun column hfound => ?_
    have hname : column.name = other := by simpa using List.find?_some hfound
    rw [hname]

end Statements

/-! ## One migration -/

/-- The tables that migrations change. -/
def tableNames : List String :=
  ["tbl_wallets", "tbl_transactions", "tbl_token_list_items", "tbl_address_book"]

/-- A migration leads to the next version and keeps the contents. -/
structure Advances (version : ℕ) (db db' : SqlDatabase numbers) : Prop where
  upgraded : Version (version + 1) db'
  contents_eq : contents (version + 1) db' = contents version db
  others : ∀ name ∉ tableNames, db' name = db name

section Steps

variable {db db' : SqlDatabase numbers} {version : ℕ}

theorem filter_stays (version : ℕ) (hversion : version + 1 < 6 ↔ version < 6)
    (records : List Record) :
    records.filter (fun record => Stays (version + 1) record) =
      records.filter fun record => Stays version record := by
  refine List.filter_congr fun record _ => ?_
  have hstays : Stays (version + 1) record ↔ Stays version record := by
    unfold Stays
    rw [← not_lt, hversion, not_lt]
  simp only [hstays]

/-- Only the table of wallets has changed. -/
theorem Version.advance_wallets (h : Version version db)
    (hothers : ∀ other ≠ "tbl_wallets", db' other = db other)
    (hwallets : Stored db' "tbl_wallets" (walletColumns (version + 1)))
    (hcolumns : transactionColumns (version + 1) = transactionColumns version ∧
      tokenColumns (version + 1) = tokenColumns version)
    (hread : (records db' "tbl_wallets").map (read numbers DBWalletRepository.table.fields) =
      (records db "tbl_wallets").map (read numbers DBWalletRepository.table.fields))
    (hentry : version + 1 < 8 ∧ (records db' "tbl_wallets").filterMap entry =
      (records db "tbl_wallets").filterMap entry ∨ 8 ≤ version)
    (hversion : version + 1 < 6 ↔ version < 6) : Advances version db db' where
  upgraded := {
    wallets := hwallets
    transactions := hcolumns.1 ▸ h.transactions.of_eq (hothers _ (by decide))
    tokens := hcolumns.2 ▸ h.tokens.of_eq (hothers _ (by decide))
    addressBook := h.addressBook.of_eq (hothers _ (by decide))
    transactionsFree := (hothers _ (by decide)).trans h.transactionsFree
    walletsFree := (hothers _ (by decide)).trans h.walletsFree }
  contents_eq := by
    have hsame : ∀ name ≠ "tbl_wallets", records db' name = records db name :=
      fun name hname => records_of_eq (hothers name hname)
    have hentries : (if version + 1 < 8 then (records db' "tbl_wallets").filterMap entry else []) =
        if version < 8 then (records db "tbl_wallets").filterMap entry else [] := by
      rcases hentry with ⟨hlt, heq⟩ | hle
      · rw [if_pos hlt, if_pos (Nat.lt_of_succ_lt hlt), heq]
      · rw [if_neg (by omega), if_neg (by omega)]
    simp only [contents, hread, hsame _ (show "tbl_transactions" ≠ "tbl_wallets" by decide),
      hsame _ (show "tbl_token_list_items" ≠ "tbl_wallets" by decide),
      hsame _ (show "tbl_address_book" ≠ "tbl_wallets" by decide), filter_stays version hversion,
      hentries]
  others := fun name hname => hothers name fun heq => hname (heq ▸ by decide)

/-- Only the table of transactions has changed. -/
theorem Version.advance_transactions (h : Version version db)
    (hothers : ∀ other ≠ "tbl_transactions", db' other = db other)
    (htransactions : Stored db' "tbl_transactions" (transactionColumns (version + 1)))
    (hcolumns : walletColumns (version + 1) = walletColumns version ∧
      tokenColumns (version + 1) = tokenColumns version)
    (hread : ((records db' "tbl_transactions").filter fun record =>
        Stays (version + 1) record).map (read numbers DBTransactionRepository.table.fields) =
      ((records db "tbl_transactions").filter fun record => Stays version record).map
        (read numbers DBTransactionRepository.table.fields))
    (hversion : version + 1 < 8) : Advances version db db' where
  upgraded := {
    wallets := hcolumns.1 ▸ h.wallets.of_eq (hothers _ (by decide))
    transactions := htransactions
    tokens := hcolumns.2 ▸ h.tokens.of_eq (hothers _ (by decide))
    addressBook := h.addressBook.of_eq (hothers _ (by decide))
    transactionsFree := (hothers _ (by decide)).trans h.transactionsFree
    walletsFree := (hothers _ (by decide)).trans h.walletsFree }
  contents_eq := by
    have hsame : ∀ name ≠ "tbl_transactions", records db' name = records db name :=
      fun name hname => records_of_eq (hothers name hname)
    simp only [contents, hread, hsame _ (show "tbl_wallets" ≠ "tbl_transactions" by decide),
      hsame _ (show "tbl_token_list_items" ≠ "tbl_transactions" by decide),
      hsame _ (show "tbl_address_book" ≠ "tbl_transactions" by decide), if_pos hversion,
      if_pos (Nat.lt_of_succ_lt hversion)]
  others := fun name hname => hothers name fun heq => hname (heq ▸ by decide)

theorem entry_update {record : Record} {name : String} (v : Option SqlValue)
    (hname : name ∉ ["id", "name", "address"]) :
    entry (Function.update record name v) = entry record := by
  simp only [List.mem_cons, List.not_mem_nil, or_false, not_or] at hname
  obtain ⟨hid, hname, haddress⟩ := hname
  simp only [entry, Function.update_of_ne (Ne.symm hid), Function.update_of_ne (Ne.symm hname),
    Function.update_of_ne (Ne.symm haddress)]

/-- One more column of wallets. -/
theorem addWalletColumn {columns : List SqlColumn} (h : Stored db "tbl_wallets" columns)
    (column : SqlColumn) (hnew : column.name ∉ columns.map SqlColumn.name)
    (hconstraint : column.constraint = .none ∨
      column.constraint = .notNull ∧ column.default ≠ .null)
    (hfield : ∀ field ∈ DBWalletRepository.table.fields, field.name = column.name →
      field.type = column.type ∧ absent column.type = column.default)
    (hentry : ∀ record : Record, record column.name = none →
      entry (Function.update record column.name
        (some (numbers.coerce column.type column.default))) = entry record) :
    ∃ db', SqlStatement.run db (.addColumn "tbl_wallets" column) = some db' ∧
      Stored db' "tbl_wallets" (columns ++ [column.declared]) ∧
      (records db' "tbl_wallets").map (read numbers DBWalletRepository.table.fields) =
        (records db "tbl_wallets").map (read numbers DBWalletRepository.table.fields) ∧
      (records db' "tbl_wallets").filterMap entry = (records db "tbl_wallets").filterMap entry ∧
      ∀ other ≠ "tbl_wallets", db' other = db other := by
  obtain ⟨db', hrun, hstored, hrecords, hothers⟩ := addColumn_records h column hnew hconstraint
  refine ⟨db', hrun, hstored, ?_, ?_, hothers⟩
  · rw [hrecords, List.map_map]
    exact List.map_congr_left fun record hrecord =>
      read_update _ (h.record_eq_none hrecord hnew) hfield
  · rw [hrecords, List.filterMap_map]
    exact List.filterMap_congr fun record hrecord =>
      hentry record (h.record_eq_none hrecord hnew)

theorem advance_M0002 (h : Version 0 db) : ∃ db',
    SqlStatement.runAll M0002_AddFeeTokenToWallet.setUp db = (db', true) ∧
      Advances 0 db db' := by
  obtain ⟨db', hrun, hstored, hread, hentry, hothers⟩ := addWalletColumn h.wallets
    (column "fee_payment_token_address" .text) (by decide) (by decide) (by decide)
    fun record _ => entry_update _ (by decide)
  refine ⟨db', SqlStatement.runAll_cons hrun, ?_⟩
  exact h.advance_wallets hothers hstored ⟨rfl, rfl⟩ hread (.inl ⟨by decide, hentry⟩) (by decide)

theorem advance_M0004 (h : Version 2 db) : ∃ db',
    SqlStatement.runAll M0004_AddColumnsToWallet.setUp db = (db', true) ∧
      Advances 2 db db' := by
  obtain ⟨db', hrun, hstored, hread, hentry, hothers⟩ := addWalletColumn h.wallets
    (column "master_copy_address" .text) (by decide) (by decide) (by decide)
    fun record _ => entry_update _ (by decide)
  obtain ⟨db'', hrun', hstored', hread', hentry', hothers'⟩ := addWalletColumn hstored
    (column "contract_version" .text) (by decide) (by decide) (by decide)
    fun record _ => entry_update _ (by decide)
  refine ⟨db'', (SqlStatement.runAll_cons hrun).trans (SqlStatement.runAll_cons hrun'), ?_⟩
  exact h.advance_wallets (fun other hne => (hothers' other hne).trans (hothers other hne))
    hstored' ⟨rfl, rfl⟩ (hread'.trans hread) (.inl ⟨by decide, hentry'.trans hentry⟩) (by decide)

theorem advance_M0008 (h : Version 6 db) : ∃ db',
    SqlStatement.runAll M0008_AddWalletNameField.setUp db = (db', true) ∧
      Advances 6 db db' := by
  obtain ⟨db', hrun, hstored, hread, hentry, hothers⟩ := addWalletColumn h.wallets
    { name := "name", type := .text, default := .text "Safe" } (by decide) (by decide) (by decide)
    fun record hnone => by
      simp [entry, hnone, SqlNumbers.coerce, SqlNumbers.asText]
  refine ⟨db', SqlStatement.runAll_cons hrun, ?_⟩
  exact h.advance_wallets hothers hstored ⟨rfl, rfl⟩ hread (.inl ⟨by decide, hentry⟩) (by decide)

theorem advance_M0010 (h : Version 8 db) : ∃ db',
    SqlStatement.runAll M0010_AddWalletTypeField.setUp db = (db', true) ∧
      Advances 8 db db' := by
  obtain ⟨db', hrun, hstored, hread, -, hothers⟩ := addWalletColumn h.wallets
    { name := "type", type := .integer, constraint := .notNull, default := .integer 0 }
    (by decide) (by decide) (by decide) fun record _ => entry_update _ (by decide)
  refine ⟨db', SqlStatement.runAll_cons hrun, ?_⟩
  exact h.advance_wallets hothers hstored ⟨rfl, rfl⟩ hread (.inr le_rfl) (by decide)

theorem advance_M0003 (h : Version 1 db) : ∃ db',
    SqlStatement.runAll M0003_AddCanPayTransactionFeeToTokenListItem.setUp db = (db', true) ∧
      Advances 1 db db' := by
  have hnew : "can_pay_transaction_fee" ∉ (tokenColumns 1).map SqlColumn.name := by decide
  obtain ⟨db', hrun, hstored, hrecords, hothers⟩ := addColumn_records h.tokens
    { name := "can_pay_transaction_fee", type := .boolean, default := .integer 0 } hnew (by decide)
  have hsame : ∀ name ≠ "tbl_token_list_items", records db' name = records db name :=
    fun name hname => records_of_eq (hothers name hname)
  have hread : (records db' "tbl_token_list_items").map
      (read numbers DBTokenListItemRepository.table.fields) =
        (records db "tbl_token_list_items").map
          (read numbers DBTokenListItemRepository.table.fields) := by
    rw [hrecords, List.map_map]
    exact List.map_congr_left fun record hrecord =>
      read_update _ (h.tokens.record_eq_none hrecord hnew) (by decide)
  refine ⟨db', SqlStatement.runAll_cons hrun, ?_, ?_, ?_⟩
  · exact {
      wallets := h.wallets.of_eq (hothers _ (by decide))
      transactions := h.transactions.of_eq (hothers _ (by decide))
      tokens := hstored
      addressBook := h.addressBook.of_eq (hothers _ (by decide))
      transactionsFree := (hothers _ (by decide)).trans h.transactionsFree
      walletsFree := (hothers _ (by decide)).trans h.walletsFree }
  · simp only [contents, hread, hsame _ (show "tbl_wallets" ≠ "tbl_token_list_items" by decide),
      hsame _ (show "tbl_transactions" ≠ "tbl_token_list_items" by decide),
      hsame _ (show "tbl_address_book" ≠ "tbl_token_list_items" by decide),
      filter_stays 1 (by decide)]
    rfl
  · exact fun name hname => hothers name fun heq => hname (heq ▸ by decide)

/-- A repository reads the same from a table and from the one that is filled from it: a field
is a column of both with its type, or of none. -/
def Reads (fields old columns : List SqlColumn) : Prop :=
  ∀ field ∈ fields,
    (∃ column ∈ columns, column.name = field.name ∧ column.type = field.type) ∧
      (∃ column ∈ old, column.name = field.name) ∨
    field.name ∉ columns.map SqlColumn.name ∧ field.name ∉ old.map SqlColumn.name

instance (fields old columns : List SqlColumn) : Decidable (Reads fields old columns) :=
  inferInstanceAs (Decidable (∀ _ ∈ _, _))

theorem Stored.read_restrict {name : String} {fields old columns : List SqlColumn}
    (h : Stored db name old) (hnodup : (columns.map SqlColumn.name).Nodup)
    (hreads : Reads fields old columns) {record : Record} (hrecord : record ∈ records db name) :
    read numbers fields (restrict numbers columns record) = read numbers fields record := by
  refine WalletMigrations.read_restrict hnodup fun field hmem => ?_
  rcases hreads field hmem with ⟨hcolumn, column, hold, hname⟩ | ⟨hnotin, hmissing⟩
  · obtain ⟨v, hv, -⟩ := h.record_of_mem hrecord hold
    exact .inl ⟨hcolumn, v, hname ▸ hv⟩
  · exact .inr ⟨hnotin, h.record_eq_none hrecord hmissing⟩

/-- A value of a column that keeps its type stays. -/
theorem Stored.restrict_of_mem {name : String} {old columns : List SqlColumn}
    (h : Stored db name old) (hnodup : (columns.map SqlColumn.name).Nodup) {column : SqlColumn}
    (hold : column ∈ old) (hmem : column ∈ columns) {record : Record}
    (hrecord : record ∈ records db name) :
    restrict numbers columns record column.name = record column.name := by
  obtain ⟨v, hv, hstable, -⟩ := h.record_of_mem hrecord hold
  rw [restrict, SqlColumn.find?_name hnodup hmem, hv, Option.map_some, Option.getD_some, hstable]

/-- Transactions in a rebuilt table. -/
theorem Version.advance_rebuilt (h : Version version db)
    (hfills : Fills (transactionColumns version) (transactionColumns (version + 1)))
    (hdeclared : (transactionColumns (version + 1)).map SqlColumn.declared =
      transactionColumns (version + 1))
    (hreads : Reads DBTransactionRepository.table.fields (transactionColumns version)
      (transactionColumns (version + 1)))
    (hstatus : column "transaction_status" .integer .notNull ∈ transactionColumns version ∧
      column "transaction_status" .integer .notNull ∈ transactionColumns (version + 1))
    (hcolumns : walletColumns (version + 1) = walletColumns version ∧
      tokenColumns (version + 1) = tokenColumns version)
    (hversion : version + 1 < 6) : ∃ db',
      SqlStatement.runAll (SqlStatement.rebuild "new_tbl_transactions"
        (transactionColumns (version + 1)) "tbl_transactions") db = (db', true) ∧
        Advances version db db' := by
  obtain ⟨db', hrun, hstored, hrecords, hothers⟩ :=
    rebuild_records h.transactions hfills hdeclared h.transactionsFree
  refine ⟨db', hrun, h.advance_transactions hothers hstored hcolumns ?_ (by omega)⟩
  rw [hrecords, List.filter_map, List.map_map]
  have hfilter : (records db "tbl_transactions").filter ((fun record =>
      decide (Stays (version + 1) record)) ∘ restrict numbers (transactionColumns (version + 1))) =
        (records db "tbl_transactions").filter fun record => Stays version record := by
    refine List.filter_congr fun record hrecord => ?_
    have hsame := h.transactions.restrict_of_mem hfills.1 hstatus.1 hstatus.2 hrecord
    have hstays : Stays (version + 1) (restrict numbers (transactionColumns (version + 1)) record) ↔
        Stays version record := by
      rw [Stays, Stays, show restrict numbers (transactionColumns (version + 1)) record
        "transaction_status" = record "transaction_status" from hsame]
      exact or_congr ⟨fun _ => (by omega), fun _ => (by omega)⟩ Iff.rfl
    simp only [Function.comp_apply, hstays]
  rw [hfilter]
  exact List.map_congr_left fun record hrecord =>
    h.transactions.read_restrict hfills.1 hreads (List.mem_of_mem_filter hrecord)

theorem advance_M0005 (h : Version 3 db) : ∃ db',
    SqlStatement.runAll M0005_ChangeTransactionFeeColumnType.setUp db = (db', true) ∧
      Advances 3 db db' :=
  h.advance_rebuilt (by decide) rfl (by decide) (by decide) ⟨rfl, rfl⟩ (by decide)

theorem advance_M0006 (h : Version 4 db) : ∃ db',
    SqlStatement.runAll M0006_RemoveWalletIDFromTransactions.setUp db = (db', true) ∧
      Advances 4 db db' :=
  h.advance_rebuilt (by decide) rfl (by decide) (by decide) ⟨rfl, rfl⟩ (by decide)

theorem advance_M0007 (h : Version 5 db) : ∃ db',
    SqlStatement.runAll M0007_RemoveDiscardedTransactionState.setUp db = (db', true) ∧
      Advances 5 db db' := by
  obtain ⟨table, htable, hcolumns⟩ := h.transactions
  have hmem : "transaction_status" ∈ table.columns.map SqlColumn.name := by
    rw [names_of_declared hcolumns]
    decide
  refine ⟨Function.update db "tbl_transactions" (some (table.deleteWhere fun row =>
    table.cell "transaction_status" row = some (.integer 6))), ?_, ?_⟩
  · refine (SqlStatement.runAll_cons ?_).trans rfl
    simp only [SqlStatement.run, htable, if_pos hmem]
  · refine h.advance_transactions (fun other hne => Function.update_of_ne hne ..)
      ⟨_, Function.update_self .., hcolumns⟩ ⟨rfl, rfl⟩ ?_ (by decide)
    rw [records_eq (Function.update_self ..), records_eq htable,
      List.filter_eq_self.mpr (fun record _ => decide_eq_true (.inl le_rfl)), SqlTable.records,
      SqlTable.records, List.filter_map]
    refine congrArg (fun rows : List (List SqlValue) =>
      (rows.map fun row name => table.cell name row).map
        (read numbers DBTransactionRepository.table.fields)) (List.filter_congr fun row _ => ?_)
    simp [Stays]

/-- What is inserted into the address book are the entries for the wallets. -/
theorem selected_entries (h : Version 7 db) {table book : SqlTable numbers}
    (htable : db "tbl_wallets" = some table)
    (hbook : book.columns.map SqlColumn.declared = DBAddressBookRepository.table.fields) :
    (table.selected [.column "id", .column "name", .column "address", .literal (.integer 1)]
      ["name", "address"]).map (SqlColumn.converted numbers book.columns) =
        (records db "tbl_wallets").filterMap entry := by
  have hconverted : SqlColumn.converted numbers book.columns =
      SqlColumn.converted numbers DBAddressBookRepository.table.fields := by
    funext row
    change _ = List.zipWith (fun (field : SqlColumn) v => numbers.coerce field.type v) _ row
    rw [← hbook, List.zipWith_map_left]
    rfl
  rw [hconverted, records_eq htable, SqlTable.selected, SqlTable.records, List.filterMap_map,
    List.map_map, ← List.filterMap_eq_map, List.filterMap_filter]
  refine List.filterMap_congr fun row hrow => ?_
  have hrecord : (fun name => table.cell name row) ∈ records db "tbl_wallets" := by
    rw [records_eq htable]
    exact List.mem_map_of_mem hrow
  obtain ⟨id, hid, hidText, -⟩ := h.wallets.record_of_mem hrecord
    (show column "id" .text .key ∈ walletColumns 7 by decide)
  obtain ⟨name, hname, hnameText, -⟩ := h.wallets.record_of_mem hrecord
    (show column "name" .text ∈ walletColumns 7 by decide)
  obtain ⟨address, haddress, haddressText, -⟩ := h.wallets.record_of_mem hrecord
    (show column "address" .text ∈ walletColumns 7 by decide)
  simp only [column] at hid hidText hname hnameText haddress haddressText
  have hterms : [SqlTerm.column "id", .column "name", .column "address",
      .literal (.integer 1)].filterMap (table.term row) = [id, name, address, .integer 1] := by
    simp [SqlTable.term, hid, hname, haddress]
  have hrow : SqlColumn.converted numbers DBAddressBookRepository.table.fields
      [id, name, address, .integer 1] = [id, name, address, .integer 1] := by
    change [numbers.coerce .text id, numbers.coerce .text name, numbers.coerce .text address,
      .integer 1] = _
    rw [hidText, hnameText, haddressText]
  by_cases hnull : name = .null ∨ address = .null
  · simp only [Function.comp_apply, entry, hname, haddress, Option.getD_some, if_pos hnull]
    rcases hnull with hnull | hnull <;> simp [hname, haddress, hnull]
  · obtain ⟨hnotName, hnotAddress⟩ := not_or.mp hnull
    simp [entry, hid, hname, haddress, hnotName, hnotAddress, hterms, hrow]

/-- An entry has the values of the address book. -/
theorem fits_entry (h : Version 7 db) {record : Record}
    (hrecord : record ∈ records db "tbl_wallets") {row : List SqlValue}
    (hentry : entry record = some row) :
    List.Forall₂ (SqlColumn.Fits numbers) DBAddressBookRepository.table.fields row := by
  obtain ⟨id, hid, hidText, hidNull⟩ := h.wallets.record_of_mem hrecord
    (show column "id" .text .key ∈ walletColumns 7 by decide)
  obtain ⟨name, hname, hnameText, -⟩ := h.wallets.record_of_mem hrecord
    (show column "name" .text ∈ walletColumns 7 by decide)
  obtain ⟨address, haddress, haddressText, -⟩ := h.wallets.record_of_mem hrecord
    (show column "address" .text ∈ walletColumns 7 by decide)
  simp only [column] at hid hname haddress
  simp only [entry, hid, hname, haddress, Option.getD_some] at hentry
  split at hentry
  · cases hentry
  · rename_i hnull
    obtain ⟨hnotName, hnotAddress⟩ := not_or.mp hnull
    cases hentry
    exact .cons ⟨hidText, fun _ => hidNull (by decide)⟩ (.cons ⟨hnameText, fun _ => hnotName⟩
      (.cons ⟨haddressText, fun _ => hnotAddress⟩
        (.cons ⟨rfl, fun _ hnone => (by cases hnone)⟩ .nil)))

/-- The identifier is the first value of an entry. -/
theorem cell_id {book : List SqlColumn}
    (hbook : book.map SqlColumn.declared = DBAddressBookRepository.table.fields)
    (row : List SqlValue) : SqlColumn.cell book "id" row = row.head? := by
  cases book with
  | nil => cases hbook
  | cons first rest =>
      have hname : first.name = "id" := congrArg SqlColumn.name (List.cons.inj hbook).1
      cases row with
      | nil => rfl
      | cons v row => rw [SqlColumn.cell, if_pos hname, List.head?_cons]

/-- The entries for the wallets can be inserted unless an identifier is in use. -/
theorem admits_entries (h : Version 7 db) {book : SqlTable numbers}
    (hbook : book.columns.map SqlColumn.declared = DBAddressBookRepository.table.fields) :
    SqlColumn.Admits numbers book.columns
        (book.rows ++ (records db "tbl_wallets").filterMap entry) ↔
      ((book.rows ++ (records db "tbl_wallets").filterMap entry).map List.head?).Nodup := by
  have hcell : ∀ rows : List (List SqlValue),
      rows.map (SqlColumn.cell book.columns "id") = rows.map List.head? :=
    fun rows => List.map_congr_left fun row _ => cell_id hbook row
  constructor
  · rintro ⟨-, -, hkeys⟩
    obtain ⟨id, hid, hname, -, hkey⟩ := exists_of_declared hbook
      (show column "id" .text .key ∈ DBAddressBookRepository.table.fields by decide)
    have hnodup := hkeys id hid hkey
    rwa [hname, show (column "id" .text .key).name = "id" from rfl, hcell] at hnodup
  · intro hnodup
    refine ⟨book.admits.1, fun row hrow => ?_, fun id hid hkey => ?_⟩
    · rcases List.mem_append.mp hrow with hrow | hrow
      · exact book.admits.2.1 row hrow
      · obtain ⟨record, hrecord, hentry⟩ := List.mem_filterMap.mp hrow
        have hfits := fits_entry h hrecord hentry
        rwa [← hbook, List.forall₂_map_left_iff] at hfits
    · have hkeys : ∀ field ∈ DBAddressBookRepository.table.fields,
          field.constraint = .key → field.name = "id" := by decide
      have hname : id.name = "id" :=
        hkeys id.declared (hbook ▸ List.mem_map_of_mem hid) hkey
      rwa [hname, hcell]

/-- No identifier occurs twice in the address book, or would after the names have moved. -/
def Distinct (version : ℕ) (db : SqlDatabase numbers) : Prop :=
  ((contents version db).addressBook.map List.head?).Nodup

/-- The rows of the address book. -/
theorem read_addressBook {book : SqlTable numbers} (hbook : db "tbl_address_book" = some book)
    (hfields : book.columns.map SqlColumn.declared = DBAddressBookRepository.table.fields) :
    (records db "tbl_address_book").map (read numbers DBAddressBookRepository.table.fields) =
      book.rows := by
  rw [records_eq hbook, map_read hfields]

/-- The identifiers are distinct exactly when the address book takes the entries. -/
theorem distinct_iff_admits (h : Version 7 db) {book : SqlTable numbers}
    (hbook : db "tbl_address_book" = some book)
    (hfields : book.columns.map SqlColumn.declared = DBAddressBookRepository.table.fields) :
    Distinct 7 db ↔ SqlColumn.Admits numbers book.columns
      (book.rows ++ (records db "tbl_wallets").filterMap entry) := by
  rw [admits_entries h hfields, Distinct, contents, read_addressBook hbook hfields]
  rfl

/-- The entries are inserted if the address book takes them. -/
theorem migrationSQL_run (h : Version 7 db) {book : SqlTable numbers}
    (hbook : db "tbl_address_book" = some book)
    (hfields : book.columns.map SqlColumn.declared = DBAddressBookRepository.table.fields) :
    SqlStatement.run db M0009_MigrateSafesNamesToAddressBook.migrationSQL =
      (SqlTable.make numbers book.columns
        (book.rows ++ (records db "tbl_wallets").filterMap entry)).map fun book' =>
          Function.update db "tbl_address_book" (some book') := by
  obtain ⟨table, htable, hcolumns⟩ := h.wallets
  have hselects : [SqlTerm.column "id", .column "name", .column "address",
      .literal (.integer 1)].length = book.columns.length ∧
        ∀ name ∈ ["name", "address"] ++ [SqlTerm.column "id", .column "name", .column "address",
          .literal (.integer 1)].filterMap SqlTerm.name?,
          name ∈ table.columns.map SqlColumn.name := by
    rw [names_of_declared hcolumns]
    refine ⟨?_, by decide⟩
    have hlength := congrArg List.length hfields
    rw [List.length_map] at hlength
    exact hlength.symm
  simp only [M0009_MigrateSafesNamesToAddressBook.migrationSQL, SqlStatement.run, hbook, htable,
    if_pos hselects, selected_entries h htable hfields]

/-- When the entries are in the address book, the names leave the wallets. -/
theorem advance_moved (h : Version 7 db) {book book' : SqlTable numbers}
    (hbook : db "tbl_address_book" = some book)
    (hfields : book.columns.map SqlColumn.declared = DBAddressBookRepository.table.fields)
    (hcolumns : book'.columns = book.columns)
    (hrows : book'.rows = book.rows ++ (records db "tbl_wallets").filterMap entry) :
    ∃ db', SqlStatement.runAll
        (deleteColumns M0009_MigrateSafesNamesToAddressBook.newWalletsTable "tbl_wallets")
        (Function.update db "tbl_address_book" (some book')) = (db', true) ∧
      Advances 7 db db' := by
  have hne : ∀ other ≠ "tbl_address_book",
      Function.update db "tbl_address_book" (some book') other = db other :=
    fun other hother => Function.update_of_ne hother ..
  have hfills : Fills (walletColumns 7) (walletColumns 8) := by decide
  obtain ⟨db', hrun, hstored, hrecords, hothers⟩ := rebuild_records
    (h.wallets.of_eq (hne _ (by decide))) hfills rfl ((hne _ (by decide)).trans h.walletsFree)
  have hsame : ∀ other, other ≠ "tbl_wallets" → other ≠ "tbl_address_book" →
      db' other = db other :=
    fun other hother hother' => (hothers other hother).trans (hne other hother')
  have hbook' : db' "tbl_address_book" = some book' :=
    (hothers _ (by decide)).trans (Function.update_self ..)
  have hfields' : book'.columns.map SqlColumn.declared = DBAddressBookRepository.table.fields :=
    hcolumns ▸ hfields
  refine ⟨db', hrun, ?_, ?_, ?_⟩
  · exact {
      wallets := hstored
      transactions := h.transactions.of_eq (hsame _ (by decide) (by decide))
      tokens := h.tokens.of_eq (hsame _ (by decide) (by decide))
      addressBook := ⟨book', hbook', hfields'⟩
      transactionsFree := (hsame _ (by decide) (by decide)).trans h.transactionsFree
      walletsFree := (hsame _ (by decide) (by decide)).trans h.walletsFree }
  · have hread : (records db' "tbl_wallets").map (read numbers DBWalletRepository.table.fields) =
        (records db "tbl_wallets").map (read numbers DBWalletRepository.table.fields) := by
      rw [hrecords, records_of_eq (hne _ (by decide)), List.map_map]
      exact List.map_congr_left fun record hrecord =>
        h.wallets.read_restrict hfills.1 (by decide) hrecord
    have htransactions : records db' "tbl_transactions" = records db "tbl_transactions" :=
      records_of_eq (hsame _ (by decide) (by decide))
    have htokens : records db' "tbl_token_list_items" = records db "tbl_token_list_items" :=
      records_of_eq (hsame _ (by decide) (by decide))
    simp only [contents, hread, read_addressBook hbook' hfields', hrows, htransactions, htokens,
      read_addressBook hbook hfields, filter_stays 7 (by decide), lt_irrefl, if_false,
      List.append_nil, if_pos (show 7 < 8 by decide)]
  · refine fun name hname => hsame name (fun heq => ?_) fun heq => ?_
    · exact hname (heq ▸ by decide)
    · exact hname (heq ▸ by decide)

/-- The names move unless an identifier is in use; otherwise the statement is refused. -/
theorem advance_M0009 (h : Version 7 db) :
    (Distinct 7 db → ∃ db', SqlStatement.runAll M0009_MigrateSafesNamesToAddressBook.setUp db =
      (db', true) ∧ Advances 7 db db') ∧
    (¬ Distinct 7 db →
      (SqlStatement.runAll M0009_MigrateSafesNamesToAddressBook.setUp db).2 = false) := by
  obtain ⟨book, hbook, hfields⟩ := h.addressBook
  have hdistinct := distinct_iff_admits h hbook hfields
  have hmigration := migrationSQL_run h hbook hfields
  constructor
  · intro hyes
    have hadmits := hdistinct.mp hyes
    rw [SqlTable.make_of_admits hadmits, Option.map_some] at hmigration
    obtain ⟨db', hrun, hadvances⟩ :=
      @advance_moved _ _ h book ⟨_, _, hadmits⟩ hbook hfields rfl rfl
    exact ⟨db', (SqlStatement.runAll_cons hmigration).trans hrun, hadvances⟩
  · intro hno
    have hnone : SqlTable.make numbers book.columns
        (book.rows ++ (records db "tbl_wallets").filterMap entry) = none :=
      dif_neg (hdistinct.not.mp hno)
    rw [hnone, Option.map_none] at hmigration
    rw [M0009_MigrateSafesNamesToAddressBook.setUp, SqlStatement.runAll, hmigration]

end Steps

/-! ## Upgrades -/

/-- The identifier of the last migration of a version. At version 0 none is recorded: a database
that recorded the migration M0001, which was deleted from the list, is left out. -/
def latest (version : ℕ) : Option String := ((scripts.map Prod.fst).take version).getLast?

/-- The table of a repository has these rows. -/
def Holds (db : SqlDatabase numbers) (schema : TableSchema) (rows : List (List SqlValue)) :
    Prop :=
  ∃ table, db schema.tableName = some table ∧
    table.columns.map SqlColumn.declared = schema.fields ∧ table.rows = rows

/-- The repositories find the contents. -/
structure WalletContents.HeldBy (contents : WalletContents) (db : SqlDatabase numbers) :
    Prop where
  wallets : Holds db DBWalletRepository.table contents.wallets
  transactions : Holds db DBTransactionRepository.table contents.transactions
  tokens : Holds db DBTokenListItemRepository.table contents.tokens
  addressBook : Holds db DBAddressBookRepository.table contents.addressBook

/-- At the last version the rows are the contents. -/
theorem Version.held {db : SqlDatabase numbers} (h : Version 9 db) :
    (contents 9 db).HeldBy db := by
  have hrows : ∀ {name : String} {columns : List SqlColumn} {table : SqlTable numbers},
      db name = some table → table.columns.map SqlColumn.declared = columns →
        (records db name).map (read numbers columns) = table.rows := by
    intro name columns table htable hcolumns
    rw [records_eq htable]
    exact map_read hcolumns
  obtain ⟨wallets, hwallets, hwalletFields⟩ := h.wallets
  obtain ⟨transactions, htransactions, htransactionFields⟩ := h.transactions
  obtain ⟨tokens, htokens, htokenFields⟩ := h.tokens
  obtain ⟨book, hbook, hbookFields⟩ := h.addressBook
  refine ⟨⟨wallets, hwallets, hwalletFields, (hrows hwallets hwalletFields).symm⟩,
    ⟨transactions, htransactions, htransactionFields, ?_⟩,
    ⟨tokens, htokens, htokenFields, (hrows htokens htokenFields).symm⟩,
    ⟨book, hbook, hbookFields, ?_⟩⟩
  · rw [contents, List.filter_eq_self.mpr fun _ _ => decide_eq_true (.inl (by decide))]
    exact (hrows htransactions htransactionFields).symm
  · rw [contents, if_neg (by decide), List.append_nil]
    exact (hrows hbook hbookFields).symm

/-- A database has been upgraded. -/
structure Upgraded (version : ℕ) (db db' : SqlDatabase numbers) : Prop where
  upgraded : Version 9 db'
  contents_eq : contents 9 db' = contents version db
  others : ∀ name ∉ tableNames, db' name = db name

section Upgrades

open DBMigrationRepository DBMigrationService

variable {version : ℕ} {db : MigratedDatabase (SqlDatabase numbers)}

/-- One migration of the list. -/
theorem advance (hlt : version < 9) : ∃ id statements,
    (all numbers).drop version = ⟨id, fun _ => SqlStatement.runAll statements⟩ ::
      (all numbers).drop (version + 1) ∧
    ∀ db : SqlDatabase numbers, Version version db →
      (version ≠ 7 ∨ Distinct version db →
        ∃ db', SqlStatement.runAll statements db = (db', true) ∧ Advances version db db') ∧
      (version = 7 ∧ ¬ Distinct version db →
        (SqlStatement.runAll statements db).2 = false) := by
  interval_cases version
  · exact ⟨_, _, rfl, fun db h => ⟨fun _ => advance_M0002 h, fun h => (by cases h.1)⟩⟩
  · exact ⟨_, _, rfl, fun db h => ⟨fun _ => advance_M0003 h, fun h => (by cases h.1)⟩⟩
  · exact ⟨_, _, rfl, fun db h => ⟨fun _ => advance_M0004 h, fun h => (by cases h.1)⟩⟩
  · exact ⟨_, _, rfl, fun db h => ⟨fun _ => advance_M0005 h, fun h => (by cases h.1)⟩⟩
  · exact ⟨_, _, rfl, fun db h => ⟨fun _ => advance_M0006 h, fun h => (by cases h.1)⟩⟩
  · exact ⟨_, _, rfl, fun db h => ⟨fun _ => advance_M0007 h, fun h => (by cases h.1)⟩⟩
  · exact ⟨_, _, rfl, fun db h => ⟨fun _ => advance_M0008 h, fun h => (by cases h.1)⟩⟩
  · exact ⟨_, _, rfl, fun db h => ⟨fun hyes => (advance_M0009 h).1 (hyes.resolve_left (· rfl)),
      fun hno => (advance_M0009 h).2 hno.2⟩⟩
  · exact ⟨_, _, rfl, fun db h => ⟨fun _ => advance_M0010 h, fun h => (by cases h.1)⟩⟩

/-- Once the names have moved, the key of the address book sees to it. -/
theorem distinct_of_le {db : SqlDatabase numbers} (h : Version version db) (hle : 8 ≤ version) :
    Distinct version db := by
  obtain ⟨book, hbook, hfields⟩ := h.addressBook
  obtain ⟨id, hid, hname, -, hkey⟩ := exists_of_declared hfields
    (show column "id" .text .key ∈ DBAddressBookRepository.table.fields by decide)
  have hnodup := book.admits.2.2 id hid hkey
  rw [hname, show (column "id" .text .key).name = "id" from rfl,
    List.map_congr_left fun row _ => cell_id hfields row] at hnodup
  rw [Distinct, contents, if_neg (by omega), List.append_nil, records_eq hbook, map_read hfields]
  exact hnodup

/-- The pending migrations of a database, set up one after the other. -/
theorem setUpAll_upgrades (hle : version ≤ 9) (h : Version version db.contents) :
    (Distinct version db.contents → ∃ db', setUpAll () ((all numbers).drop version) db =
      (db', true) ∧ Upgraded version db.contents db'.contents) ∧
    (¬ Distinct version db.contents →
      (setUpAll () ((all numbers).drop version) db).2 = false) := by
  induction hle using Nat.decreasingInduction generalizing db with
  | self =>
      refine ⟨fun _ => ⟨db, rfl, h, rfl, fun _ _ => rfl⟩, fun hno => ?_⟩
      exact absurd (distinct_of_le h (by decide)) hno
  | of_succ version hlt ih =>
      obtain ⟨id, statements, hdrop, hadvance⟩ := @advance numbers version hlt
      obtain ⟨hyes, hno⟩ := hadvance db.contents h
      rw [hdrop, setUpAll]
      by_cases hrefused : version = 7 ∧ ¬ Distinct version db.contents
      · have hfails := hno hrefused
        refine ⟨fun hdistinct => absurd hdistinct hrefused.2, fun _ => ?_⟩
        cases hrun : SqlStatement.runAll statements db.contents with
        | mk contents returned =>
            rw [hrun] at hfails
            cases hfails
            simp only [hrun]
      · obtain ⟨contents', hrun, hadvances⟩ := hyes (by tauto)
        obtain ⟨hupgrades, hfails⟩ := @ih (save id
          { db with contents := contents', applied := db.applied ++ [id] }) hadvances.upgraded
        have hdistinct : Distinct (version + 1) contents' ↔ Distinct version db.contents := by
          rw [Distinct, hadvances.contents_eq, Distinct]
        simp only [hrun]
        refine ⟨fun h => ?_, fun h => hfails (hdistinct.not.mpr h)⟩
        obtain ⟨db', hset, hupgraded⟩ := hupgrades (hdistinct.mpr h)
        exact ⟨db', hset, hupgraded.upgraded, hupgraded.contents_eq.trans hadvances.contents_eq,
          fun name hname => (hupgraded.others name hname).trans (hadvances.others name hname)⟩

/-- What is pending are the migrations after those of the version. -/
theorem pendingMigrations_eq (hle : version ≤ 9) (hlatest : findLatest db = latest version) :
    pendingMigrations (registered numbers) db = (all numbers).drop version := by
  have hsorted : sorted (registered numbers) = all numbers := by
    refine List.Pairwise.insertionSort_eq ?_
    have hascending : (all numbers).Pairwise fun first second => first.id < second.id := by
      rw [all, List.pairwise_map]
      exact List.pairwise_map.mp ids_ascending
    exact hascending.imp fun h => h.le
  simp only [pendingMigrations, hsorted, hlatest]
  interval_cases version <;> rfl

/-- What a launch does to the database. -/
def launch (numbers : SqlNumbers) (db : MigratedDatabase (SqlDatabase numbers)) :
    MigratedDatabase (SqlDatabase numbers) × Bool :=
  migrate (registered numbers) () true
    { db with contents := (SqlStatement.runAll setUpRepositories db.contents).1 }

/-- Tables that exist stay, and an address book is created if there is none. -/
theorem setUpRepositories_run {db : SqlDatabase numbers} (h : Installed version db) : ∃ db',
    SqlStatement.runAll setUpRepositories db = (db', true) ∧ Version version db' ∧
      contents version db' = contents version db ∧
        ∀ name ≠ "tbl_address_book", db' name = db name := by
  have hexists : ∀ (table : TableSchema) {fields : List SqlColumn},
      Stored db table.tableName fields → SqlStatement.run db table.createTableSQL = some db := by
    rintro table fields ⟨found, hfound, -⟩
    simp only [TableSchema.createTableSQL, SqlStatement.run, hfound]
  have hrun : SqlStatement.runAll setUpRepositories db =
      SqlStatement.runAll [DBAddressBookRepository.table.createTableSQL] db := by
    rw [setUpRepositories, SqlStatement.runAll_cons (hexists DBWalletRepository.table h.wallets),
      SqlStatement.runAll_cons (hexists DBTransactionRepository.table h.transactions),
      SqlStatement.runAll_cons (hexists DBTokenListItemRepository.table h.tokens)]
  rcases h.book with hnone | hbook
  · have hempty : SqlColumn.Admits numbers DBAddressBookRepository.table.fields [] :=
      ⟨by decide, fun _ hrow => (by cases hrow), fun _ _ _ => List.nodup_nil⟩
    have hothers : ∀ other ≠ "tbl_address_book", Function.update db "tbl_address_book"
        (some (⟨_, [], hempty⟩ : SqlTable numbers)) other = db other :=
      fun other hother => Function.update_of_ne hother ..
    have hcreate : SqlStatement.run db DBAddressBookRepository.table.createTableSQL =
        some (Function.update db "tbl_address_book" (some ⟨_, [], hempty⟩)) := by
      rw [TableSchema.createTableSQL, SqlStatement.run,
        show db DBAddressBookRepository.table.tableName = none from hnone]
      simp only [SqlTable.make_of_admits hempty, Option.map_some]
      rfl
    refine ⟨_, hrun.trans (SqlStatement.runAll_cons hcreate), ?_, ?_, hothers⟩
    · exact {
        wallets := h.wallets.of_eq (hothers _ (by decide))
        transactions := h.transactions.of_eq (hothers _ (by decide))
        tokens := h.tokens.of_eq (hothers _ (by decide))
        addressBook := ⟨_, Function.update_self .., rfl⟩
        transactionsFree := (hothers _ (by decide)).trans h.transactionsFree
        walletsFree := (hothers _ (by decide)).trans h.walletsFree }
    · have hbooks : records (Function.update db "tbl_address_book"
          (some (⟨_, [], hempty⟩ : SqlTable numbers))) "tbl_address_book" =
            records db "tbl_address_book" := by
        rw [records_eq (Function.update_self ..), records, hnone]
        rfl
      have hwallets := records_of_eq (hothers "tbl_wallets" (by decide))
      have htransactions := records_of_eq (hothers "tbl_transactions" (by decide))
      have htokens := records_of_eq (hothers "tbl_token_list_items" (by decide))
      simp only [contents, hbooks, hwallets, htransactions, htokens]
  · exact ⟨db, hrun.trans (SqlStatement.runAll_cons
      (hexists DBAddressBookRepository.table hbook)),
      { h with addressBook := hbook }, rfl, fun _ _ => rfl⟩

/-- A launch upgrades a database of any version: the tables get the columns of the repositories,
and their rows are the contents they had, unless the name of a wallet would move to an
identifier that is in use; then the database is left at its version. The latest migration on
record is one of those that are still listed, or there is none. -/
theorem launch_upgrades (hle : version ≤ 9) (h : Installed version db.contents)
    (hlatest : findLatest db = latest version) :
    (Distinct version db.contents → (launch numbers db).2 = true ∧
      (contents version db.contents).HeldBy (launch numbers db).1.contents ∧
      ∀ name ∉ tableNames, (launch numbers db).1.contents name = db.contents name) ∧
    (¬ Distinct version db.contents → (launch numbers db).2 = false ∧
      Version version (launch numbers db).1.contents ∧
      contents version (launch numbers db).1.contents = contents version db.contents) := by
  obtain ⟨created, hrun, hversion, hcontents, hothers⟩ := setUpRepositories_run h
  have hpending : pendingMigrations (registered numbers) { db with contents := created } =
      (all numbers).drop version := pendingMigrations_eq hle hlatest
  have hdistinct : Distinct version created ↔ Distinct version db.contents := by
    rw [Distinct, hcontents, Distinct]
  obtain ⟨hupgrades, hfails⟩ :=
    @setUpAll_upgrades _ version { db with contents := created } hle hversion
  have hlaunch : launch numbers db = if (all numbers).drop version = [] then
      ({ db with contents := created }, true)
    else executeInTransaction true (setUpAll () ((all numbers).drop version))
      { db with contents := created } := by
    rw [launch, hrun, migrate]
    simp only [hpending]
  rw [hlaunch]
  constructor
  · intro h
    obtain ⟨db', hset, hupgraded⟩ := hupgrades (hdistinct.mpr h)
    have hresult : (contents version db.contents).HeldBy db'.contents ∧
        ∀ name ∉ tableNames, db'.contents name = db.contents name := by
      refine ⟨?_, fun name hname => (hupgraded.others name hname).trans
        (hothers name fun heq => hname (heq ▸ by decide))⟩
      rw [← hupgraded.contents_eq.trans hcontents]
      exact hupgraded.upgraded.held
    by_cases hempty : (all numbers).drop version = []
    · rw [hempty] at hset
      cases hset
      rw [if_pos hempty]
      exact ⟨rfl, hresult⟩
    · rw [if_neg hempty, executeInTransaction, hset]
      exact ⟨rfl, hresult⟩
  · intro h
    have hfalse := hfails (hdistinct.not.mpr h)
    have hempty : (all numbers).drop version ≠ [] := by
      intro hempty
      rw [hempty] at hfalse
      cases hfalse
    rw [if_neg hempty]
    cases hset : setUpAll () ((all numbers).drop version) { db with contents := created } with
    | mk changed returned =>
        rw [hset] at hfalse
        cases hfalse
        rw [executeInTransaction, hset]
        exact ⟨rfl, hversion, hcontents⟩

/-- Only integers are read as numbers. -/
def integers : SqlNumbers where
  ofText s := s.toInt?.map .inl
  realText _ := ""
  integral _ := none

/-- A database of the first version with one wallet, a transaction and a discarded one. -/
def firstDatabase : SqlDatabase integers := fun name =>
  if name = "tbl_wallets" then
    some ⟨walletColumns 0,
      [[.text "w", .integer 7, .text "", .text "0x1", .null, .null, .integer 1]], by decide⟩
  else if name = "tbl_transactions" then
    some ⟨transactionColumns 0,
      [[.text "t", .text "w", .text "ETH:w", .integer 0, .integer 4, .null, .null, .null, .null,
          .null, .null, .null, .null, .null, .null, .null, .integer 21000, .integer 100,
          .integer 0, .null, .blob [1], .null, .null, .null],
        [.text "u", .text "w", .text "ETH:w", .integer 0, .integer 6, .null, .null, .null, .null,
          .null, .null, .null, .null, .null, .null, .null, .null, .null, .null, .null, .null,
          .null, .null, .null]], by decide⟩
  else if name = "tbl_token_list_items" then some ⟨tokenColumns 0, [], by decide⟩
  else none

theorem installed_firstDatabase : Installed 0 firstDatabase where
  wallets := ⟨_, rfl, rfl⟩
  transactions := ⟨_, rfl, rfl⟩
  tokens := ⟨_, rfl, rfl⟩
  book := .inl rfl
  transactionsFree := rfl
  walletsFree := rfl

theorem firstDatabase_upgraded :
    Holds (launch integers ⟨firstDatabase, Table.empty, []⟩).1.contents
      DBTransactionRepository.table
      [[.text "t", .text "ETH:w", .integer 0, .integer 4, .null, .null, .null, .null, .null, .null,
        .null, .null, .null, .null, .null, .text (toString (21000 : ℤ)),
        .text (toString (100 : ℤ)), .text (toString (0 : ℤ)), .null, .blob [1], .null, .null,
        .null]] ∧
    Holds (launch integers ⟨firstDatabase, Table.empty, []⟩).1.contents
      DBAddressBookRepository.table [[.text "w", .text "Safe", .text "0x1", .integer 1]] := by
  have hdistinct : Distinct 0 firstDatabase := by
    unfold Distinct
    decide
  have hupgraded := ((@launch_upgrades _ 0 ⟨firstDatabase, Table.empty, []⟩ (Nat.zero_le 9)
    installed_firstDatabase rfl).1 hdistinct).2.1
  exact ⟨hupgraded.transactions, hupgraded.addressBook⟩

end Upgrades

end WalletMigrations

end SafeWallet
