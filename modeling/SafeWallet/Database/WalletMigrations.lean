/-
# The migrations of the wallet database

Each version of the app left tables of its own shape, and the migrations bring them,
one after the other, to the shape that the repositories use now. Migrations change the
tables of wallets, transactions and token list items; the names of the wallets move to
the address book. At every launch the repositories create the tables that are missing
before the pending migrations are set up.
-/

import SafeWallet.Base.Sql
import SafeWallet.Database.Migrations

namespace SafeWallet

/-- A column without a default. -/
def column (name : String) (type : SqlType) (constraint : SqlConstraint := .none) : SqlColumn :=
  { name, type, constraint }

/-- `TableSchema`. -/
structure TableSchema where
  tableName : String
  fields : List SqlColumn

namespace TableSchema

/-- `createTableSQL`. -/
def createTableSQL (table : TableSchema) : SqlStatement :=
  .createTable table.tableName table.fields

/-- `fieldNameList`, as the terms of a query. -/
def fieldNameList (table : TableSchema) : List SqlTerm :=
  table.fields.map fun field => .column field.name

end TableSchema

/-! ## The tables of the repositories -/

/-- `DBWalletRepository.table`. -/
def DBWalletRepository.table : TableSchema where
  tableName := "tbl_wallets"
  fields := [
    column "id" .text .key,
    column "state" .integer .notNull,
    column "owners" .text .notNull,
    column "address" .text,
    column "minimum_deployment_tx_amount" .text,
    column "creation_tx_hash" .text,
    column "confirmation_count" .integer .notNull,
    column "fee_payment_token_address" .text,
    column "master_copy_address" .text,
    column "contract_version" .text,
    column "type" .integer .notNull]

/-- The fields of a transaction. The tables differ in a wallet identifier and in the type of
the fee estimates. -/
def transactionFields (walletID : List SqlColumn) (estimate : SqlType) : List SqlColumn :=
  [column "id" .text .key] ++ walletID ++ [
    column "account_id" .text .notNull,
    column "transaction_type" .integer .notNull,
    column "transaction_status" .integer .notNull,
    column "sender" .text,
    column "recipient" .text,
    column "amount" .text,
    column "fee" .text,
    column "signatures" .text,
    column "created_date" .text,
    column "updated_date" .text,
    column "rejected_date" .text,
    column "submission_date" .text,
    column "processed_date" .text,
    column "transaction_hash" .text,
    column "fee_estimate_gas" estimate,
    column "fee_estimate_data_gas" estimate,
    column "fee_estimate_operational_gas" estimate,
    column "fee_estimate_gas_price" .text,
    column "data" .blob,
    column "operation" .integer,
    column "nonce" .text,
    column "hash" .blob]

/-- `DBTransactionRepository.SQL.createTable`. -/
def DBTransactionRepository.table : TableSchema where
  tableName := "tbl_transactions"
  fields := transactionFields [] .text

/-- `DBTokenListItemRepository.table`. -/
def DBTokenListItemRepository.table : TableSchema where
  tableName := "tbl_token_list_items"
  fields := [
    column "id" .text .key,
    column "token" .text .notNull,
    column "status" .text .notNull,
    column "sorting_id" .integer,
    column "updated" .text .notNull,
    column "can_pay_transaction_fee" .boolean]

/-- `DBAddressBookRepository.table`. -/
def DBAddressBookRepository.table : TableSchema where
  tableName := "tbl_address_book"
  fields := [
    column "id" .text .key,
    column "name" .text .notNull,
    column "address" .text .notNull,
    column "type" .integer .notNull]

/-! ## The migrations -/

/-- `Migration.deleteColumns(connection:newTableSchema:tableName:)`. -/
def deleteColumns (newTableSchema : TableSchema) (tableName : String) : List SqlStatement :=
  [newTableSchema.createTableSQL,
    .insertSelect newTableSchema.tableName newTableSchema.fieldNameList tableName [],
    .dropTable tableName,
    .rename newTableSchema.tableName tableName]

namespace M0002_AddFeeTokenToWallet

/-- `setUp(connection:)`. -/
def setUp : List SqlStatement :=
  [.addColumn "tbl_wallets" (column "fee_payment_token_address" .text)]

end M0002_AddFeeTokenToWallet

namespace M0003_AddCanPayTransactionFeeToTokenListItem

/-- `setUp(connection:)`. -/
def setUp : List SqlStatement :=
  [.addColumn "tbl_token_list_items"
    { name := "can_pay_transaction_fee", type := .boolean, default := .integer 0 }]

end M0003_AddCanPayTransactionFeeToTokenListItem

namespace M0004_AddColumnsToWallet

/-- `setUp(connection:)`. -/
def setUp : List SqlStatement :=
  [.addColumn "tbl_wallets" (column "master_copy_address" .text),
    .addColumn "tbl_wallets" (column "contract_version" .text)]

end M0004_AddColumnsToWallet

namespace M0005_ChangeTransactionFeeColumnType

/-- `oldTable`. -/
def oldTable : TableSchema :=
  ⟨"tbl_transactions", transactionFields [column "wallet_id" .text .notNull] .integer⟩

/-- `newTable`. -/
def newTable : TableSchema :=
  ⟨"new_tbl_transactions", transactionFields [column "wallet_id" .text .notNull] .text⟩

/-- `setUp(connection:)`. -/
def setUp : List SqlStatement :=
  [newTable.createTableSQL,
    .insertSelect newTable.tableName oldTable.fieldNameList oldTable.tableName [],
    .dropTable oldTable.tableName,
    .rename newTable.tableName oldTable.tableName]

end M0005_ChangeTransactionFeeColumnType

namespace M0006_RemoveWalletIDFromTransactions

/-- `oldTable`. -/
def oldTable : TableSchema :=
  ⟨"tbl_transactions", transactionFields [column "wallet_id" .text .notNull] .text⟩

/-- `newTable`. -/
def newTable : TableSchema := ⟨"new_tbl_transactions", transactionFields [] .text⟩

/-- `setUp(connection:)`. -/
def setUp : List SqlStatement :=
  [newTable.createTableSQL,
    .insertSelect newTable.tableName newTable.fieldNameList oldTable.tableName [],
    .dropTable oldTable.tableName,
    .rename newTable.tableName oldTable.tableName]

end M0006_RemoveWalletIDFromTransactions

namespace M0007_RemoveDiscardedTransactionState

/-- `setUp(connection:)`. -/
def setUp : List SqlStatement :=
  [.deleteWhere "tbl_transactions" "transaction_status" (.integer 6)]

end M0007_RemoveDiscardedTransactionState

namespace M0008_AddWalletNameField

/-- `setUp(connection:)`. -/
def setUp : List SqlStatement :=
  [.addColumn "tbl_wallets" { name := "name", type := .text, default := .text "Safe" }]

end M0008_AddWalletNameField

namespace M0009_MigrateSafesNamesToAddressBook

/-- `newWalletsTable`. -/
def newWalletsTable : TableSchema where
  tableName := "tbl_wallets_new"
  fields := [
    column "id" .text .key,
    column "state" .integer .notNull,
    column "owners" .text .notNull,
    column "address" .text,
    column "minimum_deployment_tx_amount" .text,
    column "creation_tx_hash" .text,
    column "confirmation_count" .integer .notNull,
    column "fee_payment_token_address" .text,
    column "master_copy_address" .text,
    column "contract_version" .text]

/-- `migrationSQL`. -/
def migrationSQL : SqlStatement :=
  .insertSelect "tbl_address_book"
    [.column "id", .column "name", .column "address", .literal (.integer 1)] "tbl_wallets"
    ["name", "address"]

/-- `setUp(connection:)`. -/
def setUp : List SqlStatement := migrationSQL :: deleteColumns newWalletsTable "tbl_wallets"

end M0009_MigrateSafesNamesToAddressBook

namespace M0010_AddWalletTypeField

/-- `setUp(connection:)`. -/
def setUp : List SqlStatement :=
  [.addColumn "tbl_wallets"
    { name := "type", type := .integer, constraint := .notNull, default := .integer 0 }]

end M0010_AddWalletTypeField

namespace WalletMigrations

variable (numbers : SqlNumbers)

/-- The migrations with their identifiers and statements. -/
def scripts : List (String × List SqlStatement) := [
  ("M0002_AddFeeTokenToWallet", M0002_AddFeeTokenToWallet.setUp),
  ("M0003_AddCanPayTransactionFeeToTokenListItem",
    M0003_AddCanPayTransactionFeeToTokenListItem.setUp),
  ("M0004_AddColumnsToWallet", M0004_AddColumnsToWallet.setUp),
  ("M0005_ChangeTransactionFeeColumnType", M0005_ChangeTransactionFeeColumnType.setUp),
  ("M0006_RemoveWalletIDFromTransactions", M0006_RemoveWalletIDFromTransactions.setUp),
  ("M0007_RemoveDiscurdedTransactionState", M0007_RemoveDiscardedTransactionState.setUp),
  ("M0008_AddWalletNameField", M0008_AddWalletNameField.setUp),
  ("M0009_MigrateSafesNamesToAddressBook", M0009_MigrateSafesNamesToAddressBook.setUp),
  ("M0010_AddWalletTypeField", M0010_AddWalletTypeField.setUp)]

/-- `WalletMigrations.all`. -/
def all : List (Migration (SqlDatabase numbers) Unit) :=
  scripts.map fun script => ⟨script.1, fun _ => SqlStatement.runAll script.2⟩

/-- The calls of `setUp()` on the repositories of the migrated tables. -/
def setUpRepositories : List SqlStatement :=
  [DBWalletRepository.table.createTableSQL,
    DBTransactionRepository.table.createTableSQL,
    DBTokenListItemRepository.table.createTableSQL,
    DBAddressBookRepository.table.createTableSQL]

theorem ids_ascending : (scripts.map Prod.fst).Pairwise (· < ·) := by decide

/-- What `migrate(with:)` registers. The identifiers are of ASCII. -/
def registered : RegisteredMigrations .literal (SqlDatabase numbers) Unit where
  migrations := all numbers
  ids_nodup := by
    rw [all, List.map_map]
    exact ids_ascending.imp fun h => ne_of_lt h

end WalletMigrations

end SafeWallet
