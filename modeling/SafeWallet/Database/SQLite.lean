/-
# The SQLite wrapper

Connections, statements and result sets are thin objects around handles of the C
library. A connection remembers the statements it has prepared and finalizes them
when it is closed; the database remembers its open connections. Whatever the library
answers is the library's matter; the model is the sequence of its calls, and of the
changes to the two lists.

The library answers that it is busy as long as it likes. The loops that wait for it
have a bound on their rounds, and a program that reaches it goes on waiting.
-/

import SafeWallet.Base.Dialogue
import SafeWallet.Base.Hex

namespace SafeWallet

/-- The result codes that the wrapper tells apart. -/
inductive SQLiteStatus
  | ok
  | busy
  | auth
  | ioerr
  | row
  | done
  | error
  | misuse
  | range
  | other (code : ℤ)
  deriving DecidableEq, Repr

/-- `SQLBindable?`; a floating-point number is given by its bits. -/
inductive SQLBindable
  | null
  | int (value : ℤ)
  | double (bits : UInt64)
  | string (value : String)
  | data (value : Data)
  | bool (value : Bool)
  deriving DecidableEq, Repr

/-- The accessors of a result set. -/
inductive ColumnType
  | string
  | int
  | double
  | data
  deriving DecidableEq, Repr

/-- `SQLiteDatabase.Error`, as far as it is thrown here. -/
inductive SQLiteError
  | databaseDoesNotExist
  | invalidSQLiteVersion
  | failedToOpenDatabase
  | failedToCloseDatabase
  | connectionIsAlreadyClosed
  | invalidSQLStatement
  | attemptToExecuteFinalizedStatement
  | statementWasAlreadyExecuted
  | runtimeError
  | invalidStatementState
  | transactionMustBeRolledBack
  | failedToSetStatementParameter
  | statementParameterIndexOutOfRange
  | attemptToBindExecutedStatement
  | attemptToBindFinalizedStatement
  | other (message : String)
  deriving DecidableEq, Repr

/-- Calls of the library, questions to the file manager, and changes to the list of open
connections and their statements. -/
inductive SQLiteCall
  | fileExists
  | isSupportedVersion
  | removeFile
  | open
  | close (db : ℕ)
  | prepare (db : ℕ) (sql : String)
  | finalize (stmt : ℕ)
  | getAutocommit (db : ℕ)
  | errmsg (db : ℕ)
  | step (stmt : ℕ)
  | reset (stmt : ℕ)
  | bindParameterIndex (stmt : ℕ) (key : String)
  | bind (stmt : ℕ) (index : ℕ) (value : SQLBindable)
  | columnCount (stmt : ℕ)
  | columnName (stmt : ℕ) (index : ℕ)
  | columnIsNull (stmt : ℕ) (index : ℕ)
  | column (stmt : ℕ) (index : ℕ) (type : ColumnType)
  | columnBytes (stmt : ℕ) (index : ℕ)
  | appendConnection (db : ℕ)
  | appendStatement (db stmt : ℕ)
  | isClosed (db : ℕ)
  | statements (db : ℕ)
  | setClosed (db : ℕ)
  | removeConnection (db : ℕ)
  | connections
  | removeAllConnections

namespace SQLiteCall

/-- What comes back. A pointer that the library fills in is `nil` or a handle. -/
abbrev Answer : SQLiteCall → Type
  | fileExists => Bool
  | isSupportedVersion => Bool
  | removeFile => Except SQLiteError Unit
  | «open» => SQLiteStatus × Option ℕ
  | close _ => SQLiteStatus
  | prepare _ _ => SQLiteStatus × Option ℕ
  | finalize _ => SQLiteStatus
  | getAutocommit _ => Bool
  | errmsg _ => Option String
  | step _ => SQLiteStatus
  | reset _ => SQLiteStatus
  | bindParameterIndex _ _ => ℕ
  | bind _ _ _ => SQLiteStatus
  | columnCount _ => ℕ
  | columnName _ _ => Option String
  | columnIsNull _ _ => Bool
  | column _ _ _ => Option SQLBindable
  | columnBytes _ _ => ℕ
  | appendConnection _ => Unit
  | appendStatement _ _ => Unit
  | isClosed _ => Bool
  | statements _ => List ℕ
  | setClosed _ => Unit
  | removeConnection _ => Unit
  | connections => List ℕ
  | removeAllConnections => Unit

end SQLiteCall

/-- A piece of the wrapper. -/
abbrev SQLite (α : Type) := Dialogue SQLiteCall SQLiteCall.Answer SQLiteError α

namespace SQLite

/-- Make a call. -/
def call (m : SQLiteCall) : SQLite m.Answer := Dialogue.send m

/-- `waitWhileBusy(_:)`, after `retries` errors of the file system. -/
def waitWhileBusy (m : SQLiteCall) (status : m.Answer → SQLiteStatus) :
    ℕ → ℕ → SQLite m.Answer
  | 0, _ => .wait
  | rounds + 1, retries => do
    let answer ← call m
    if status answer = .busy then waitWhileBusy m status rounds retries
    else if (status answer = .auth ∨ status answer = .ioerr) ∧ retries < 3 then
      waitWhileBusy m status rounds (retries + 1)
    else return answer

end SQLite

/-! ## Statements and result sets -/

/-- `SQLiteStatement`. -/
structure SQLiteStatement where
  sql : String
  db : ℕ
  stmt : ℕ
  isFinalized : Bool := false
  isExecuted : Bool := false

/-- `SQLiteResultSet`; of two columns with one name the later one counts. -/
structure SQLiteResultSet where
  db : ℕ
  stmt : ℕ
  columnIndexes : List (String × ℕ)

/-- What a result map reads from each row: columns by index or by name. -/
inductive ColumnKey
  | index (index : ℕ)
  | name (column : String)

/-- The `resultMap` closures: the columns they read and what they make of the values. -/
structure ResultMap (T : Type) where
  columns : List (ColumnKey × ColumnType)
  map : List (Option SQLBindable) → Except SQLiteError (Option T)

namespace SQLiteStatement

open SQLite

/-- `assertCanBind()` and `set(_:at:)`. -/
def setAt (statement : SQLiteStatement) (value : SQLBindable) (index : ℕ) : SQLite Unit :=
  if statement.isExecuted then .fail .attemptToBindExecutedStatement
  else if statement.isFinalized then .fail .attemptToBindFinalizedStatement
  else .say (.bind statement.stmt index value) fun status =>
    if status = SQLiteStatus.range then .fail .statementParameterIndexOutOfRange
    else if status = SQLiteStatus.ok then .pure ()
    else .say (.errmsg statement.db) fun _ => .fail .failedToSetStatementParameter

/-- `set(_:forKey:)`. -/
def setForKey (statement : SQLiteStatement) (value : SQLBindable) (key : String) :
    SQLite Unit :=
  .say (.bindParameterIndex statement.stmt key) fun index => statement.setAt value index

/-- The value that is bound: a Boolean is bound as a number. -/
def bound : SQLBindable → SQLBindable
  | .bool value => .int (if value = false then 0 else 1)
  | value => value

/-- `bind(_:)` for an array; indexes start at one. -/
def bindAll (statement : SQLiteStatement) (bindings : List SQLBindable) : SQLite Unit :=
  Dialogue.each (bindings.zipIdx 1) fun binding => statement.setAt (bound binding.1) binding.2

/-- `bind(_:)` for a dictionary, in some order of its keys. -/
def bindKeys (statement : SQLiteStatement) (dict : List (String × SQLBindable)) : SQLite Unit :=
  Dialogue.each dict fun entry => statement.setForKey (bound entry.2) entry.1

/-- `sql.localizedCaseInsensitiveContains("commit")`. -/
def isCommitStatement (statement : SQLiteStatement) : Bool :=
  statement.sql.toLower.toList.tails.any fun rest => "commit".toList.isPrefixOf rest

/-- The columns with names, from `index` on. -/
def columnNames (stmt : ℕ) : ℕ → ℕ → List (String × ℕ) → SQLite (List (String × ℕ))
  | 0, _, columnIndexes => .pure columnIndexes
  | count + 1, index, columnIndexes => .say (.columnName stmt index) fun name =>
    match (name : Option String) with
    | some name => columnNames stmt count (index + 1) ((name, index) :: columnIndexes)
    | none => columnNames stmt count (index + 1) columnIndexes

/-- The loop of `SQLiteResultSet.init`, which resets the statement. -/
def resetWhileBusy (db stmt : ℕ) : ℕ → SQLite Unit
  | 0 => .wait
  | rounds + 1 => .say (.reset stmt) fun status =>
    if status = SQLiteStatus.busy then resetWhileBusy db stmt rounds
    else if status = SQLiteStatus.ok then .pure ()
    else .say (.errmsg db) fun _ => .trap .precondition

/-- `SQLiteResultSet.init(db:stmt:sqlite:)`. -/
def resultSet (rounds db stmt : ℕ) : SQLite SQLiteResultSet := do
  resetWhileBusy db stmt rounds
  .say (.columnCount stmt) fun count => do
    let columnIndexes ← columnNames stmt count 0 []
    return ⟨db, stmt, columnIndexes⟩

/-- `execute()`. -/
def execute (statement : SQLiteStatement) (patience : ℕ) :
    ℕ → SQLite (SQLiteStatement × Option SQLiteResultSet)
  | 0 => .wait
  | rounds + 1 =>
    if statement.isFinalized then .fail .attemptToExecuteFinalizedStatement
    else if statement.isExecuted then .fail .statementWasAlreadyExecuted
    else .say (.step statement.stmt) fun status =>
      match (status : SQLiteStatus) with
      | .done => .pure ({ statement with isExecuted := true }, none)
      | .row => do
        let rs ← resultSet patience statement.db statement.stmt
        return ({ statement with isExecuted := true }, some rs)
      | .busy => .say (.getAutocommit statement.db) fun autocommit =>
        if statement.isCommitStatement ∨ autocommit = true then execute statement patience rounds
        else .fail .transactionMustBeRolledBack
      | .error => .say (.errmsg statement.db) fun _ => .fail .runtimeError
      | .misuse => .fail .invalidStatementState
      | _ => .say (.errmsg statement.db) fun _ => .trap .precondition

end SQLiteStatement

namespace SQLiteResultSet

open SQLite

/-- `advanceToNextRow()`. -/
def advanceToNextRow (rs : SQLiteResultSet) : ℕ → SQLite Bool
  | 0 => .wait
  | rounds + 1 => .say (.step rs.stmt) fun status =>
    match (status : SQLiteStatus) with
    | .done => .pure false
    | .row => .pure true
    | .busy => .say (.getAutocommit rs.db) fun autocommit =>
      if autocommit = true then rs.advanceToNextRow rounds else .fail .transactionMustBeRolledBack
    | _ => .say (.errmsg rs.db) fun _ => .trap .precondition

/-- `string(at:)`, `int(at:)`, `double(at:)` and `data(at:)`. -/
def valueAt (rs : SQLiteResultSet) (index : ℕ) (type : ColumnType) :
    SQLite (Option SQLBindable) :=
  .say (.columnCount rs.stmt) fun count =>
    if ¬ index < (show ℕ from count) then .trap .precondition
    else .say (.columnIsNull rs.stmt index) fun isNull =>
      if isNull = true then .pure none
      else .say (.column rs.stmt index type) fun value =>
        match (value : Option SQLBindable), type with
        | some text, .string => .say (.columnBytes rs.stmt index) fun _ => .pure (some text)
        | some data, .data => .say (.columnBytes rs.stmt index) fun _ => .pure (some data)
        | found, _ => .pure found

/-- The same accessors for a column with a name, which may be missing. -/
def value (rs : SQLiteResultSet) (key : ColumnKey) (type : ColumnType) :
    SQLite (Option SQLBindable) :=
  match key with
  | .index index => rs.valueAt index type
  | .name column =>
    match rs.columnIndexes.lookup column with
    | none => .pure none
    | some index => rs.valueAt index type

/-- All columns that a result map reads. -/
def values (rs : SQLiteResultSet) :
    List (ColumnKey × ColumnType) → SQLite (List (Option SQLBindable))
  | [] => .pure []
  | (key, type) :: rest => do
    let found ← rs.value key type
    let values ← rs.values rest
    return found :: values

/-- The loop that maps the rows. -/
def mapRows {T : Type} (rs : SQLiteResultSet) (resultMap : ResultMap T) (patience : ℕ) :
    ℕ → List (Option T) → SQLite (List (Option T))
  | 0, _ => .wait
  | rounds + 1, result => do
    if ← rs.advanceToNextRow patience then
      let values ← rs.values resultMap.columns
      match resultMap.map values with
      | .error e => .fail e
      | .ok mapped => rs.mapRows resultMap patience rounds (result ++ [mapped])
    else return result

end SQLiteResultSet

/-! ## Connections and the database -/

namespace SQLiteConnection

open SQLite

/-- `prepare(statement:)` of an opened connection. -/
def prepare (patience db : ℕ) (sql : String) : SQLite SQLiteStatement :=
  .say (.isClosed db) fun isClosed =>
    if isClosed = true then .fail .connectionIsAlreadyClosed
    else do
      let answer ← waitWhileBusy (.prepare db sql) Prod.fst patience 0
      if answer.1 ≠ .ok then .say (.errmsg db) fun _ => .fail .invalidSQLStatement
      else
        match answer.2 with
        | none => .fail .invalidSQLStatement
        | some stmt => .say (.appendStatement db stmt) fun _ => .pure ⟨sql, db, stmt, false, false⟩

/-- `execute(sql:bindings:dict:resultMap:)` of a connection. -/
def execute {T : Type} (patience db : ℕ) (sql : String) (bindings : List SQLBindable)
    (dict : List (String × SQLBindable)) (resultMap : ResultMap T) :
    SQLite (List (Option T)) := do
  let statement ← prepare patience db sql
  statement.bindAll bindings
  statement.bindKeys dict
  let executed ← statement.execute patience patience
  match executed.2 with
  | none => return []
  | some rs => rs.mapRows resultMap patience patience []

/-- `destroyAllStatements()`. -/
def destroyAllStatements (db : ℕ) : SQLite Unit :=
  .say (.statements db) fun statements =>
    Dialogue.each (show List ℕ from statements) fun stmt => .say (.finalize stmt) fun _ => .pure ()

/-- `close()`. -/
def close (patience db : ℕ) : SQLite Unit :=
  .say (.isClosed db) fun isClosed =>
    if isClosed = true then .fail .connectionIsAlreadyClosed
    else do
      destroyAllStatements db
      let status ← waitWhileBusy (.close db) id patience 0
      if status ≠ .ok then .say (.errmsg db) fun _ => .fail .failedToCloseDatabase
      else .say (.setClosed db) fun _ => .pure ()

end SQLiteConnection

namespace SQLiteDatabase

open SQLite

/-- `connection()`. -/
def connection (patience : ℕ) : SQLite ℕ :=
  .say .fileExists fun exists_ =>
    if exists_ = false then .fail .databaseDoesNotExist
    else .say .isSupportedVersion fun supported =>
      if supported = false then .fail .invalidSQLiteVersion
      else do
        let answer ← waitWhileBusy .open Prod.fst patience 0
        if answer.1 ≠ .ok then .fail .failedToOpenDatabase
        else
          match answer.2 with
          | none => .fail .failedToOpenDatabase
          | some db => .say (.appendConnection db) fun _ => .pure db

/-- `close(_:)`. -/
def close (patience db : ℕ) : SQLite Unit := do
  SQLiteConnection.close patience db
  .say (.removeConnection db) fun _ => .pure ()

/-- `try? close(_:)`. -/
def tryClose (patience db : ℕ) : SQLite Unit :=
  (close patience db).orElse fun _ => .pure ()

/-- `execute(sql:bindings:dict:resultMap:)`. -/
def execute {T : Type} (patience : ℕ) (sql : String) (bindings : List SQLBindable)
    (dict : List (String × SQLBindable)) (resultMap : ResultMap T) :
    SQLite (List (Option T)) := do
  let conn ← connection patience
  (SQLiteConnection.execute patience conn sql bindings dict resultMap).deferring
    (tryClose patience conn)

/-- `destroy()`. -/
def destroy (patience : ℕ) : SQLite Unit :=
  .say .connections fun connections => do
    Dialogue.each (show List ℕ from connections) (SQLiteConnection.close patience)
    .say .removeAllConnections fun _ =>
      .say .fileExists fun exists_ =>
        if exists_ = false then .pure ()
        else .say .removeFile fun removed =>
          match (removed : Except SQLiteError Unit) with
          | .ok () => .pure ()
          | .error e => .fail e

end SQLiteDatabase

namespace DBMigrationRepository

open SQLite

/-- A command without results. -/
def command (patience conn : ℕ) (sql : String) (bindings : List SQLBindable) : SQLite Unit := do
  let _ ← SQLiteConnection.execute patience conn sql bindings [] (⟨[], fun _ => .ok none⟩ :
    ResultMap Unit)
  return ()

/-- `executeInTransaction(_:)` with the commands of the closure. -/
def executeAllInTransaction (patience : ℕ) (closure : List (String × List SQLBindable)) :
    SQLite Unit := do
  let conn ← SQLiteDatabase.connection patience
  Dialogue.deferring (do
    command patience conn "BEGIN;" []
    Dialogue.orElse (do
      Dialogue.each closure fun entry => command patience conn entry.1 entry.2
      command patience conn "COMMIT;" []) fun e => do
        (command patience conn "ROLLBACK;" []).orElse fun _ => (.pure () : SQLite Unit)
        .fail e) (SQLiteDatabase.tryClose patience conn)

end DBMigrationRepository

end SafeWallet
