/-
# Repositories in the database

A repository keeps its objects in a table with one row for each, under a primary key.
What the row of an object is and how a row is read is a matter of the repository; the
statements are the same for all of them.

A text is bound with the zero that ends a C string and read up to its first zero, and a
blob without bytes is read as no value. What a repository gives back is therefore an
object as it is read from its row; which objects are read unchanged is a question for
each repository.
-/

import SafeWallet.Base.SqlRows
import SafeWallet.Base.Table
import SafeWallet.Base.Trapping
import SafeWallet.Database.SQLite
import SafeWallet.Database.WalletMigrations
import SafeWallet.Repositories.TransactionRow

namespace SafeWallet

/-! ## Bindings -/

namespace SQLBindable

/-- What the library takes for no number is bound as a null. -/
def isNaN (bits : UInt64) : Bool := (bits &&& 0x7FFFFFFFFFFFFFFF) > 0x7FF0000000000000

/-- `set(_:at:)` and `setNil(at:)`. The C string of a text is bound with the zero at its end. -/
def set : SQLBindable → SqlValue
  | .null => .null
  | .int n => .integer n
  | .double bits => if isNaN bits then .null else .real bits
  | .string s => .text (String.ofList (s.toList ++ ['\x00']))
  | .data bytes => .blob bytes
  | .bool b => .integer (if b = false then 0 else 1)

/-- `bind(_:)`. -/
def bind (bindings : List SQLBindable) : List SqlValue := bindings.map set

theorem set_string_injective : Function.Injective fun s => set (.string s) := by
  intro s s' h
  have hlists := congrArg String.toList (SqlValue.text.inj h)
  rw [String.toList_ofList, String.toList_ofList] at hlists
  exact String.toList_injective (List.append_cancel_right hlists)

theorem set_string_ne_null (s : String) : set (.string s) ≠ .null := SqlValue.noConfusion

theorem coerce_set_string (numbers : SqlNumbers) (s : String) :
    numbers.coerce .text (set (.string s)) = set (.string s) := rfl

end SQLBindable

/-! ## Results -/

/-- What the library makes of a value that is asked for as one of another type, and how it
orders two numbers. -/
structure SqlCasts where
  text : SqlValue → Option String
  blob : SqlValue → Option Data
  int64 : SqlValue → ℤ
  numberLE : SqlValue → SqlValue → Bool

/-- `SQLiteResultSet`, at one of its rows. -/
structure ResultSet where
  columnNames : List String
  row : List SqlValue

namespace ResultSet

section Accessors

variable (casts : SqlCasts) (rs : ResultSet)

/-- The value under the name of a column. -/
def value (column : String) : Option SqlValue := (rs.columnNames.zip rs.row).lookup column

/-- `string(column:)`. -/
def string (column : String) : Option String :=
  match rs.value column with
  | none => none
  | some .null => none
  | some (.text s) => some (String.ofList (Column.nextString s.toList))
  | some v => casts.text v

/-- `data(column:)`. -/
def data (column : String) : Option Data :=
  match rs.value column with
  | none => none
  | some .null => none
  | some (.blob bytes) => Column.nextData (some bytes)
  | some v => casts.blob v

/-- `int(column:)`. -/
def int (column : String) : Option ℤ :=
  match rs.value column with
  | none => none
  | some .null => none
  | some (.integer n) => some n
  | some v => some (casts.int64 v)

end Accessors

variable {casts : SqlCasts} {rs : ResultSet} {column : String}

/-- A stored text is read up to its first zero. -/
theorem string_eq {s : String} (h : rs.value column = some (SQLBindable.set (.string s))) :
    rs.string casts column = some (String.ofList (Column.nextString s.toList)) := by
  have hzero : Column.nextString (s.toList ++ ['\x00']) = Column.nextString s.toList := by
    rw [Column.nextString, List.takeWhile_append, Column.nextString]
    split
    · rename_i hall
      rw [(List.takeWhile_prefix _).eq_of_length hall]
      simp
    · rfl
  rw [string, h]
  simp only [SQLBindable.set, String.toList_ofList, hzero]

/-- A stored text without a zero is read to its end. -/
theorem string_eq_some {s : String} (h : rs.value column = some (SQLBindable.set (.string s)))
    (hplain : '\x00' ∉ s.toList) : rs.string casts column = some s := by
  rw [string_eq h, DBTransactionRepository.nextString_eq_self.mpr hplain, String.ofList_toList]

/-- A stored blob is read if it has bytes. -/
theorem data_eq {bytes : Data} (h : rs.value column = some (.blob bytes)) :
    rs.data casts column = if bytes = [] then none else some bytes := by
  simp only [data, h, Column.nextData, Option.filter]
  cases bytes <;> simp

end ResultSet

/-! ## Repositories -/

/-- `TableSchema.fieldNameList`, as names. -/
def TableSchema.fieldNames (table : TableSchema) : List String := table.fields.map SqlColumn.name

/-- `TableSchema.primaryKey`. -/
def TableSchema.primaryKey (table : TableSchema) : Option SqlColumn :=
  table.fields.find? fun field => field.constraint = .key

/-- `DBAbstractRepository` and `DBEntityRepository`: what a repository of objects with
identifiers overrides. A row has a value for each field, the key is the value of the primary
key, which is not the `rowid`, and identifiers are told apart by it. -/
structure DBRepository (T Key : Type) where
  table : TableSchema
  id : T → Key
  insertionBindings : T → List SQLBindable
  objectFromResultSet : SqlCasts → ResultSet → Option T
  primaryKeyBinding : Key → SQLBindable
  key : SqlColumn
  keyed : key.KeyedBy table.fields
  bindings_length : ∀ item, (insertionBindings item).length = table.fields.length
  bindings_key : ∀ item, SqlColumn.cell table.fields key.name
    (SQLBindable.bind (insertionBindings item)) = some (primaryKeyBinding (id item)).set
  key_ne_null : ∀ k, (primaryKeyBinding k).set ≠ .null
  key_stored : ∀ (numbers : SqlNumbers) k,
    numbers.coerce key.type (primaryKeyBinding k).set = (primaryKeyBinding k).set
  key_injective : Function.Injective fun k => (primaryKeyBinding k).set

namespace DBRepository

variable {T Key : Type} {numbers : SqlNumbers} (repository : DBRepository T Key)
  (casts : SqlCasts)

/-- The key is the primary key of the schema. -/
theorem primaryKey_eq : repository.table.primaryKey = some repository.key := by
  obtain ⟨found, hfound⟩ : ∃ found, repository.table.primaryKey = some found :=
    Option.isSome_iff_exists.mp (List.find?_isSome.mpr
      ⟨_, repository.keyed.mem, decide_eq_true repository.keyed.constraint⟩)
  have hkey : found.constraint = .key := by simpa using List.find?_some hfound
  rw [hfound, repository.keyed.only found (List.mem_of_find?_eq_some hfound) hkey]

/-- `try! db.execute(sql:bindings:)` of a statement that changes the table. A missing table is
an error of `prepare(statement:)`, which is thrown and meets the forced try; a value that is
missing in a row is an unexpected status of `sqlite3_step`, a failed precondition. -/
def execute (statement : SqlTable numbers → Option (SqlTable numbers))
    (db : SqlDatabase numbers) : Trapping (SqlDatabase numbers) := do
  let stored ← Trapping.unwrap (db repository.table.tableName)
  match statement stored with
  | some changed => return Function.update db repository.table.tableName (some changed)
  | none => .error .precondition

/-- `try! db.execute(sql:bindings:resultMap:)` of a query for some rows, without the rows that
yield no object. -/
def query (chosen : SqlTable numbers → List (List SqlValue)) (db : SqlDatabase numbers) :
    Trapping (List T) := do
  let stored ← Trapping.unwrap (db repository.table.tableName)
  let rows ← Trapping.unwrap (stored.values repository.table.fieldNames (chosen stored))
  return rows.filterMap fun row =>
    repository.objectFromResultSet casts ⟨repository.table.fieldNames, row⟩

/-- `setUp()`. -/
def setUp (db : SqlDatabase numbers) : Trapping (SqlDatabase numbers) :=
  Trapping.unwrap (repository.table.createTableSQL.run db)

/-- `save(_:)`. -/
def save (item : T) : SqlDatabase numbers → Trapping (SqlDatabase numbers) :=
  repository.execute fun stored => stored.insertOrReplace repository.table.fieldNames
    (SQLBindable.bind (repository.insertionBindings item))

/-- `remove(_:)`. -/
def remove (item : T) : SqlDatabase numbers → Trapping (SqlDatabase numbers) :=
  repository.execute fun stored => stored.deleteEqual repository.key.name
    (repository.primaryKeyBinding (repository.id item)).set

/-- `find(id:)`. -/
def find (k : Key) (db : SqlDatabase numbers) : Trapping (Option T) := do
  let found ← repository.query casts (fun stored => (stored.rows.filter
    (stored.equals repository.key.name (repository.primaryKeyBinding k).set)).take 1) db
  return found.head?

/-- `find(key:value:caseSensitive:orderBy:)`; without a column to order by, it is `rowid`. -/
def findAll (column : String) (value : SQLBindable) (caseSensitive : Bool)
    (orderBy : Option String) : SqlDatabase numbers → Trapping (List T) :=
  repository.query casts fun stored => stored.ordered casts.numberLE orderBy
    (stored.rows.filter fun row => if caseSensitive then stored.equals column value.set row
      else stored.equalsNoCase column value.set row)

/-- `findFirst()`. -/
def findFirst (db : SqlDatabase numbers) : Trapping (Option T) := do
  let found ← repository.query casts (fun stored => stored.rows.take 1) db
  return found.head?

/-- `all()`. -/
def all : SqlDatabase numbers → Trapping (List T) :=
  repository.query casts fun stored => stored.rows

/-! ## The table of an object -/

/-- The row of an object. -/
def row (numbers : SqlNumbers) (item : T) : List SqlValue :=
  SqlColumn.converted numbers repository.table.fields
    (SQLBindable.bind (repository.insertionBindings item))

/-- An object as it is read from its row. -/
def loaded (numbers : SqlNumbers) (item : T) : Option T :=
  repository.objectFromResultSet casts ⟨repository.table.fieldNames, repository.row numbers item⟩

/-- No value that the table demands is missing. -/
def Storable (item : T) : Prop :=
  SqlColumn.Complete repository.table.fields
    (SQLBindable.bind (repository.insertionBindings item))

instance (item : T) : Decidable (repository.Storable item) :=
  inferInstanceAs (Decidable (SqlColumn.Complete _ _))

/-- The table of the repository has the rows of some objects. -/
def Holds (db : SqlDatabase numbers) (items : Table repository.id) : Prop :=
  ∃ stored, db repository.table.tableName = some stored ∧
    stored.columns = repository.table.fields ∧
    stored.rows = items.rows.map (repository.row numbers)

variable {repository} {casts} {item other : T} {k : Key} {db : SqlDatabase numbers}
  {items : Table repository.id}

theorem length_bind :
    (SQLBindable.bind (repository.insertionBindings item)).length =
      repository.table.fields.length := by
  rw [SQLBindable.bind, List.length_map, repository.bindings_length]

/-- The key of a row is the identifier of the object. -/
theorem cell_row : SqlColumn.cell repository.table.fields repository.key.name
    (repository.row numbers item) =
      some (repository.primaryKeyBinding (repository.id item)).set := by
  rw [row, SqlColumn.cell_converted repository.keyed.nodup repository.keyed.mem,
    repository.bindings_key, Option.map_some, repository.key_stored]

theorem cell_row_eq_iff : SqlColumn.cell repository.table.fields repository.key.name
    (repository.row numbers item) = some (repository.primaryKeyBinding k).set ↔
      repository.id item = k := by
  rw [cell_row, Option.some_inj]
  exact repository.key_injective.eq_iff

/-- Other tables do not matter. -/
theorem Holds.of_eq {db' : SqlDatabase numbers} (h : repository.Holds db items)
    (hsame : db' repository.table.tableName = db repository.table.tableName) :
    repository.Holds db' items := by
  obtain ⟨stored, hstored, hrest⟩ := h
  exact ⟨stored, hsame.trans hstored, hrest⟩

/-! ## The calls -/

/-- A query among the rows of the objects. -/
theorem query_eq (h : repository.Holds db items) {chosen : SqlTable numbers → List (List SqlValue)}
    {found : List T} (hfound : ∀ stored : SqlTable numbers,
      stored.columns = repository.table.fields →
      stored.rows = items.rows.map (repository.row numbers) →
        chosen stored = found.map (repository.row numbers))
    (hmem : ∀ item ∈ found, item ∈ items.rows) :
    repository.query casts chosen db = .ok (found.filterMap (repository.loaded casts numbers)) := by
  obtain ⟨stored, hstored, hcolumns, hrows⟩ := h
  have hchosen := hfound stored hcolumns hrows
  have hvalues := stored.values_eq (chosen stored) fun row hrow => by
    rw [hchosen] at hrow
    obtain ⟨item, hitem, rfl⟩ := List.mem_map.mp hrow
    exact hrows ▸ List.mem_map_of_mem (hmem item hitem)
  rw [hcolumns] at hvalues
  rw [query, hstored]
  simp only [Trapping.unwrap_some, Trapping.ok_bind, TableSchema.fieldNames, hvalues]
  rw [hchosen, List.filterMap_map]
  rfl

theorem head?_filterMap_toList (f : T → Option T) (o : Option T) :
    (o.toList.filterMap f).head? = o.bind f := by
  cases o with
  | none => rfl
  | some item => cases h : f item <;> simp [h]

theorem all_eq (h : repository.Holds db items) :
    repository.all casts db = .ok (items.rows.filterMap (repository.loaded casts numbers)) :=
  query_eq h (fun _ _ hrows => hrows) fun _ hitem => hitem

theorem findFirst_eq (h : repository.Holds db items) : repository.findFirst casts db =
    .ok (items.rows.head?.bind (repository.loaded casts numbers)) := by
  have hquery : repository.query casts (fun stored => stored.rows.take 1) db =
      .ok (items.rows.head?.toList.filterMap (repository.loaded casts numbers)) :=
    query_eq h (fun _ _ hrows => by rw [hrows, ← List.map_take, List.take_one])
      fun item hitem => List.mem_of_mem_head? (Option.mem_toList.mp hitem)
  rw [findFirst, hquery, Trapping.ok_bind, head?_filterMap_toList]
  rfl

theorem setUp_of_holds (h : repository.Holds db items) : repository.setUp db = .ok db := by
  obtain ⟨stored, hstored, -, -⟩ := h
  rw [setUp, TableSchema.createTableSQL, SqlStatement.run, hstored]
  rfl

/-- A table that is missing is created without objects. -/
theorem setUp_of_missing (h : db repository.table.tableName = none) :
    ∃ db', repository.setUp db = .ok db' ∧ repository.Holds db' .empty ∧
      ∀ name, name ≠ repository.table.tableName → db' name = db name := by
  have hadmits : SqlColumn.Admits numbers repository.table.fields [] :=
    ⟨repository.keyed.nodup, by simp, by simp⟩
  refine ⟨_, ?_, ⟨⟨repository.table.fields, [], hadmits⟩, Function.update_self .., rfl, rfl⟩,
    fun name hname => Function.update_of_ne hname ..⟩
  rw [setUp, TableSchema.createTableSQL, SqlStatement.run, h, SqlTable.make_of_admits hadmits]
  rfl

/-- A statement that changes the table. -/
theorem execute_eq {statement : SqlTable numbers → Option (SqlTable numbers)}
    {items' : Table repository.id} (h : repository.Holds db items)
    (hchanges : ∀ stored : SqlTable numbers, stored.columns = repository.table.fields →
      stored.rows = items.rows.map (repository.row numbers) →
        ∃ stored', statement stored = some stored' ∧ stored'.columns = repository.table.fields ∧
          stored'.rows = items'.rows.map (repository.row numbers)) :
    ∃ db', repository.execute statement db = .ok db' ∧ repository.Holds db' items' ∧
      ∀ name, name ≠ repository.table.tableName → db' name = db name := by
  obtain ⟨stored, hstored, hcolumns, hrows⟩ := h
  obtain ⟨stored', hstatement, hcolumns', hrows'⟩ := hchanges stored hcolumns hrows
  refine ⟨_, ?_, ⟨stored', Function.update_self .., hcolumns', hrows'⟩,
    fun name hname => Function.update_of_ne hname ..⟩
  rw [execute, hstored]
  simp only [Trapping.unwrap_some, Trapping.ok_bind, hstatement]
  rfl

/-- An object is not saved without a value that the table demands. -/
theorem save_traps (h : repository.Holds db items) (hstorable : ¬ repository.Storable item) :
    repository.save item db = .error .precondition := by
  obtain ⟨stored, hstored, hcolumns, -⟩ := h
  have hkeyed : repository.key.KeyedBy stored.columns := hcolumns ▸ repository.keyed
  have hlength : (SQLBindable.bind (repository.insertionBindings item)).length =
      stored.columns.length := hcolumns ▸ length_bind
  have hinsert := SqlTable.insertOrReplace_of_not_complete hkeyed hlength (hcolumns ▸ hstorable)
  rw [hcolumns] at hinsert
  rw [save, execute, hstored]
  simp only [Trapping.unwrap_some, Trapping.ok_bind, TableSchema.fieldNames, hinsert]

variable [DecidableEq Key]

/-- The rows with the key of an identifier are those of the objects with it. -/
theorem filter_equals {stored : SqlTable numbers}
    (hcolumns : stored.columns = repository.table.fields)
    (hrows : stored.rows = items.rows.map (repository.row numbers)) (k : Key) (keep : Bool) :
    (stored.rows.filter fun row => stored.equals repository.key.name
      (repository.primaryKeyBinding k).set row = keep) =
      (items.rows.filter fun item => decide (repository.id item = k) = keep).map
        (repository.row numbers) := by
  have hkeyed : repository.key.KeyedBy stored.columns := hcolumns ▸ repository.keyed
  rw [hrows, List.filter_map]
  refine congrArg _ (List.filter_congr fun item _ => ?_)
  rw [Function.comp_apply, SqlTable.equals_key hkeyed (repository.key_ne_null k)
    (repository.key_stored numbers k), SqlTable.cell, hcolumns]
  simp only [cell_row_eq_iff]

theorem find_eq (h : repository.Holds db items) : repository.find casts k db =
    .ok ((items.find k).bind (repository.loaded casts numbers)) := by
  have hquery : repository.query casts (fun stored => (stored.rows.filter
      (stored.equals repository.key.name (repository.primaryKeyBinding k).set)).take 1) db =
      .ok ((items.find k).toList.filterMap (repository.loaded casts numbers)) := by
    refine query_eq h (fun stored hcolumns hrows => ?_) fun item hitem =>
      (Table.mem_of_find (Option.mem_toList.mp hitem)).1
    have hfilter := filter_equals hcolumns hrows k true
    simp only [Bool.decide_eq_true, decide_eq_true_eq] at hfilter
    rw [hfilter, ← List.map_take, List.take_one, List.head?_filter]
    rfl
  rw [find, hquery, Trapping.ok_bind, head?_filterMap_toList]
  rfl

/-- At most one object has an identifier. -/
theorem filter_id (items : Table repository.id) (k : Key) :
    (items.rows.filter fun item => decide (repository.id item = k)) = (items.find k).toList := by
  obtain ⟨rows, hnodup⟩ := items
  simp only [Table.find]
  induction rows with
  | nil => rfl
  | cons first rest ih =>
      obtain ⟨hnotin, hrest⟩ := List.nodup_cons.mp hnodup
      by_cases hfirst : repository.id first = k
      · have hothers : (rest.filter fun item => decide (repository.id item = k)) = [] := by
          refine List.filter_eq_nil_iff.mpr fun item hitem hsame => hnotin ?_
          rw [hfirst, ← of_decide_eq_true hsame]
          exact List.mem_map_of_mem hitem
        simp [hfirst, hothers]
      · simpa [hfirst] using ih hrest

/-- The first of the objects that are found by their key, in any order. -/
theorem findAll_key (h : repository.Holds db items) (orderBy : Option String) :
    repository.findAll casts repository.key.name (repository.primaryKeyBinding k) true orderBy db =
      .ok ((items.find k).bind (repository.loaded casts numbers)).toList := by
  have hquery : repository.findAll casts repository.key.name (repository.primaryKeyBinding k) true
      orderBy db = .ok ((items.find k).toList.filterMap (repository.loaded casts numbers)) := by
    refine query_eq h (fun stored hcolumns hrows => ?_) fun item hitem =>
      (Table.mem_of_find (Option.mem_toList.mp hitem)).1
    have hfilter := filter_equals hcolumns hrows k true
    simp only [Bool.decide_eq_true, decide_eq_true_eq, filter_id] at hfilter
    simp only [if_true, hfilter]
    cases orderBy with
    | none => rfl
    | some name => cases items.find k <;> simp [SqlTable.ordered]
  rw [hquery]
  cases hfound : items.find k with
  | none => rfl
  | some item => cases hloaded : repository.loaded casts numbers item <;> simp [hloaded]

/-- The object with a key, if all objects are read unchanged. -/
theorem findAll_key_unchanged (h : repository.Holds db items)
    (hloaded : ∀ item ∈ items.rows, repository.loaded casts numbers item = some item)
    (orderBy : Option String) :
    repository.findAll casts repository.key.name (repository.primaryKeyBinding k) true orderBy db =
      .ok (items.find k).toList := by
  rw [findAll_key h]
  cases hfound : items.find k with
  | none => rfl
  | some item => rw [Option.bind_some, hloaded item (Table.mem_of_find hfound).1]

/-- An object is saved in the place of the one with its identifier. -/
theorem save_eq (h : repository.Holds db items) (hstorable : repository.Storable item) :
    ∃ db', repository.save item db = .ok db' ∧ repository.Holds db' (items.save item) ∧
      ∀ name, name ≠ repository.table.tableName → db' name = db name := by
  refine execute_eq h fun stored hcolumns hrows => ?_
  have hkeyed : repository.key.KeyedBy stored.columns := hcolumns ▸ repository.keyed
  have hlength : (SQLBindable.bind (repository.insertionBindings item)).length =
      stored.columns.length := hcolumns ▸ length_bind
  obtain ⟨stored', hinsert, hcolumns', hrows'⟩ :=
    SqlTable.insertOrReplace_of_complete hkeyed hlength (hcolumns ▸ hstorable)
  rw [hcolumns] at hinsert
  refine ⟨stored', hinsert, hcolumns'.trans hcolumns, ?_⟩
  rw [hrows', hrows, hcolumns, List.filter_map, Table.save, List.map_append]
  refine congrArg₂ _ (congrArg _ (List.filter_congr fun other _ => ?_)) rfl
  rw [Function.comp_apply, SqlTable.cell, hcolumns]
  refine decide_eq_decide.mpr (not_congr ?_)
  rw [SqlTable.cell, hcolumns]
  exact (Eq.congr_right cell_row).trans cell_row_eq_iff

theorem remove_eq (h : repository.Holds db items) :
    ∃ db', repository.remove item db = .ok db' ∧
      repository.Holds db' (items.remove (repository.id item)) ∧
      ∀ name, name ≠ repository.table.tableName → db' name = db name := by
  refine execute_eq h fun stored hcolumns hrows => ?_
  have hmem : repository.key.name ∈ stored.columns.map SqlColumn.name :=
    hcolumns ▸ List.mem_map_of_mem repository.keyed.mem
  refine ⟨stored.deleteWhere _, if_pos hmem, hcolumns, ?_⟩
  have hfilter := filter_equals hcolumns hrows (repository.id item) false
  simp only [Bool.decide_eq_false, decide_eq_false_iff_not] at hfilter
  exact hfilter

/-! ## Runs -/

/-- The calls of a repository. -/
inductive Call (T Key : Type)
  | setUp
  | save (item : T)
  | remove (item : T)
  | find (k : Key)
  | findFirst
  | all

/-- What a call returns. -/
inductive Reply (T : Type)
  | done
  | object (found : Option T)
  | objects (found : List T)
  deriving DecidableEq, Repr

variable (repository casts)

omit [DecidableEq Key] in
/-- A call on the database. -/
def perform (db : SqlDatabase numbers) :
    Call T Key → Trapping (Reply T × SqlDatabase numbers)
  | .setUp => do return (.done, ← repository.setUp db)
  | .save item => do return (.done, ← repository.save item db)
  | .remove item => do return (.done, ← repository.remove item db)
  | .find k => do return (.object (← repository.find casts k db), db)
  | .findFirst => do return (.object (← repository.findFirst casts db), db)
  | .all => do return (.objects (← repository.all casts db), db)

/-- Calls one after the other. -/
def run : List (Call T Key) → SqlDatabase numbers →
    Trapping (List (Reply T) × SqlDatabase numbers)
  | [], db => return ([], db)
  | call :: rest, db => do
    let (reply, db) ← repository.perform casts db call
    let (replies, db) ← run rest db
    return (reply :: replies, db)

/-- A call on objects that are kept in memory, each of them given out as `loaded`. -/
def performInMemory (loaded : T → Option T) (items : Table repository.id) :
    Call T Key → Reply T × Table repository.id
  | .setUp => (.done, items)
  | .save item => (.done, items.save item)
  | .remove item => (.done, items.remove (repository.id item))
  | .find k => (.object ((items.find k).bind loaded), items)
  | .findFirst => (.object (items.rows.head?.bind loaded), items)
  | .all => (.objects (items.rows.filterMap loaded), items)

/-- Calls on objects that are kept in memory. -/
def runInMemory (loaded : T → Option T) : List (Call T Key) → Table repository.id →
    List (Reply T) × Table repository.id
  | [], items => ([], items)
  | call :: rest, items =>
    let (reply, items) := repository.performInMemory loaded items call
    let (replies, items) := runInMemory loaded rest items
    (reply :: replies, items)

variable {repository casts} {call : Call T Key} {calls : List (Call T Key)}

/-- One call on the database does what the call does in memory. -/
theorem perform_eq (h : repository.Holds db items)
    (hstorable : ∀ item, call = .save item → repository.Storable item) :
    ∃ db', repository.perform casts db call = .ok ((repository.performInMemory
        (repository.loaded casts numbers) items call).1, db') ∧
      repository.Holds db' (repository.performInMemory
        (repository.loaded casts numbers) items call).2 ∧
      ∀ name, name ≠ repository.table.tableName → db' name = db name := by
  cases call with
  | setUp => exact ⟨db, by rw [perform, setUp_of_holds h]; rfl, h, fun _ _ => rfl⟩
  | save item =>
      obtain ⟨db', hsave, hholds, hothers⟩ := save_eq h (hstorable item rfl)
      exact ⟨db', by rw [perform, hsave]; rfl, hholds, hothers⟩
  | remove item =>
      obtain ⟨db', hremove, hholds, hothers⟩ := remove_eq h
      exact ⟨db', by rw [perform, hremove]; rfl, hholds, hothers⟩
  | find k => exact ⟨db, by rw [perform, find_eq h]; rfl, h, fun _ _ => rfl⟩
  | findFirst => exact ⟨db, by rw [perform, findFirst_eq h]; rfl, h, fun _ _ => rfl⟩
  | all => exact ⟨db, by rw [perform, all_eq h]; rfl, h, fun _ _ => rfl⟩

/-- Calls that save only objects with all values. -/
theorem run_eq (h : repository.Holds db items)
    (hstorable : ∀ item, Call.save item ∈ calls → repository.Storable item) :
    ∃ db', repository.run casts calls db = .ok ((repository.runInMemory
        (repository.loaded casts numbers) calls items).1, db') ∧
      repository.Holds db' (repository.runInMemory
        (repository.loaded casts numbers) calls items).2 ∧
      ∀ name, name ≠ repository.table.tableName → db' name = db name := by
  induction calls generalizing db items with
  | nil => exact ⟨db, rfl, h, fun _ _ => rfl⟩
  | cons call rest ih =>
      obtain ⟨db', hperform, hholds, hothers⟩ := perform_eq h fun item hcall =>
        hstorable item (hcall ▸ List.mem_cons_self)
      obtain ⟨db'', hrun, hholds', hothers'⟩ := ih hholds fun item hmem =>
        hstorable item (List.mem_cons_of_mem _ hmem)
      refine ⟨db'', ?_, hholds', fun name hname => (hothers' name hname).trans (hothers name hname)⟩
      rw [run, hperform]
      simp only [Trapping.ok_bind, hrun]
      rfl

/-- Calls up to an object that is not saved. -/
theorem run_traps (h : repository.Holds db items) (hrefused : Call.save item ∈ calls)
    (hstorable : ¬ repository.Storable item) :
    repository.run casts calls db = .error .precondition := by
  induction calls generalizing db items with
  | nil => cases hrefused
  | cons call rest ih =>
      by_cases hcall : ∀ item, call = .save item → repository.Storable item
      · obtain ⟨db', hperform, hholds, -⟩ := perform_eq h hcall
        have hmem : Call.save item ∈ rest := by
          rcases List.mem_cons.mp hrefused with heq | hmem
          · exact absurd (hcall item heq.symm) hstorable
          · exact hmem
        rw [run, hperform]
        simp only [Trapping.ok_bind, ih hholds hmem]
        rfl
      · obtain ⟨refused, rfl, hmissing⟩ : ∃ refused, call = .save refused ∧
            ¬ repository.Storable refused := by simpa using hcall
        rw [run, perform, save_traps h hmissing]
        rfl

/-- A repository in the database replies like one that keeps its objects in memory and gives
them out as they are read from their rows, and no other table changes. The calls stop at the
first object that lacks a value. -/
theorem run_setUp (h : db repository.table.tableName = none ∧ items = .empty ∨
    repository.Holds db items) :
    ((∀ item, Call.save item ∈ calls → repository.Storable item) →
      ∃ db', repository.run casts (.setUp :: calls) db = .ok (.done :: (repository.runInMemory
          (repository.loaded casts numbers) calls items).1, db') ∧
        repository.Holds db' (repository.runInMemory
          (repository.loaded casts numbers) calls items).2 ∧
        ∀ name, name ≠ repository.table.tableName → db' name = db name) ∧
    (∀ item, Call.save item ∈ calls → ¬ repository.Storable item →
      repository.run casts (.setUp :: calls) db = .error .precondition) := by
  obtain ⟨created, hsetUp, hholds, hothers⟩ : ∃ created, repository.setUp db = .ok created ∧
      repository.Holds created items ∧
      ∀ name, name ≠ repository.table.tableName → created name = db name := by
    rcases h with ⟨hmissing, rfl⟩ | h
    · exact setUp_of_missing hmissing
    · exact ⟨db, setUp_of_holds h, h, fun _ _ => rfl⟩
  have hrun : repository.run casts (.setUp :: calls) db = (do
      let (replies, db) ← repository.run casts calls created
      return (.done :: replies, db)) := by
    rw [run, perform, hsetUp]
    rfl
  constructor
  · intro hstorable
    obtain ⟨db', hrest, hholds', hothers'⟩ := run_eq hholds hstorable
    refine ⟨db', ?_, hholds', fun name hname => (hothers' name hname).trans (hothers name hname)⟩
    rw [hrun, hrest]
    rfl
  · intro item hmem hrefused
    rw [hrun, run_traps hholds hmem hrefused]
    rfl

/-- Objects that are read unchanged are given out unchanged. -/
theorem runInMemory_unchanged {loaded : T → Option T}
    (hitems : ∀ item ∈ items.rows, loaded item = some item)
    (hsaved : ∀ item, Call.save item ∈ calls → loaded item = some item) :
    repository.runInMemory loaded calls items = repository.runInMemory some calls items := by
  induction calls generalizing items with
  | nil => rfl
  | cons call rest ih =>
      have hreply : repository.performInMemory loaded items call =
          repository.performInMemory some items call := by
        have hoption : ∀ o : Option T, (∀ item ∈ o, item ∈ items.rows) →
            o.bind loaded = o.bind some := by
          intro o ho
          cases o with
          | none => rfl
          | some item => exact hitems item (ho item rfl)
        cases call with
        | setUp => rfl
        | save item => rfl
        | remove item => rfl
        | find k =>
            rw [performInMemory, performInMemory,
              hoption _ fun item hitem => (Table.mem_of_find hitem).1]
        | findFirst =>
            rw [performInMemory, performInMemory,
              hoption _ fun item hitem => List.mem_of_mem_head? hitem]
        | all =>
            rw [performInMemory, performInMemory,
              List.filterMap_congr fun item hitem => hitems item hitem]
      rw [runInMemory, runInMemory, hreply]
      have hkept : ∀ item ∈ (repository.performInMemory some items call).2.rows,
          loaded item = some item := by
        cases call with
        | save saved =>
            intro item hmem
            rcases Table.mem_rows_save.mp hmem with rfl | ⟨hold, -⟩
            · exact hsaved item List.mem_cons_self
            · exact hitems item hold
        | remove removed => exact fun item hmem => hitems item (Table.mem_rows_remove.mp hmem).1
        | setUp => exact hitems
        | find k => exact hitems
        | findFirst => exact hitems
        | all => exact hitems
      simp only [ih hkept fun item hmem => hsaved item (List.mem_cons_of_mem _ hmem)]

end DBRepository

/-! ## The migrations that were done -/

namespace DBMigrationRepository

/-- `DBMigrationRepository`; a migration is known by its identifier. -/
def repository : DBRepository String String where
  table := ⟨"tbl_migrations", [column "id" .text .key]⟩
  id := id
  insertionBindings id := [.string id]
  objectFromResultSet casts rs := rs.string casts "id"
  primaryKeyBinding := .string
  key := column "id" .text .key
  keyed := ⟨by decide, by decide, rfl, by decide, by decide, by decide⟩
  bindings_length _ := rfl
  bindings_key _ := rfl
  key_ne_null := SQLBindable.set_string_ne_null
  key_stored := SQLBindable.coerce_set_string
  key_injective := SQLBindable.set_string_injective

theorem storable (id : String) : repository.Storable id :=
  .cons (fun _ => SqlValue.noConfusion) .nil

section Example

/-- No text denotes a number. -/
def noNumbers : SqlNumbers := ⟨fun _ => none, fun _ => "", fun _ => none⟩

/-- Values are read as what they are. -/
def noCasts : SqlCasts := ⟨fun _ => none, fun _ => none, fun _ => 0, fun _ _ => true⟩

/-- What is saved a second time moves to the end. -/
theorem run_setUp_twice : ∃ db' : SqlDatabase noNumbers,
    repository.run noCasts [.setUp, .save "1", .save "2", .save "1", .all] (fun _ => none) =
      .ok ([.done, .done, .done, .done, .objects ["2", "1"]], db') := by
  obtain ⟨db', hrun, -, -⟩ := (@DBRepository.run_setUp _ _ noNumbers repository noCasts
    (fun _ => none) .empty _ [.save "1", .save "2", .save "1", .all] (.inl ⟨rfl, rfl⟩)).1
    fun item _ => storable item
  exact ⟨db', hrun⟩

end Example

end DBMigrationRepository

end SafeWallet
