/-
# Tables of a relational database

A small part of SQL with the rules of SQLite: values are converted by the affinity of
their column, a table refuses rows of another width, nulls where they are excluded,
and keys that occur twice. A table carries these facts, so that a statement either
yields a table that satisfies them or is refused.

Rows are listed in the order of their row numbers, which is also the order of a scan.
How texts denote numbers and which of the floating-point numbers are integers is a
parameter.

Columns are added at the end, and removed by the procedure that is usual for SQLite: a
new table is filled from the old one and takes its name. The procedure is covered by
one theorem.
-/

import Mathlib.Data.Int.Notation
import Mathlib.Data.List.Forall2
import Mathlib.Data.List.Nodup
import Mathlib.Logic.Function.Basic

namespace SafeWallet

/-- Values; a floating-point number is given by its bits. -/
inductive SqlValue
  | null
  | integer (n : ℤ)
  | real (bits : UInt64)
  | text (s : String)
  | blob (bytes : List UInt8)
  deriving DecidableEq, Repr

/-- Declared types. -/
inductive SqlType
  | text
  | integer
  | boolean
  | blob
  deriving DecidableEq, Repr

/-- Column constraints: none, `NOT NULL`, or `NOT NULL PRIMARY KEY`. -/
inductive SqlConstraint
  | none
  | notNull
  | key
  deriving DecidableEq, Repr

/-- A column declaration. -/
structure SqlColumn where
  name : String
  type : SqlType
  constraint : SqlConstraint := .none
  default : SqlValue := .null
  deriving DecidableEq, Repr

/-- Texts and floating-point numbers read as numbers. -/
structure SqlNumbers where
  ofText : String → Option (ℤ ⊕ UInt64)
  realText : UInt64 → String
  integral : UInt64 → Option ℤ

namespace SqlNumbers

variable (numbers : SqlNumbers)

/-- A floating-point number in a column of numbers. -/
def ofReal (bits : UInt64) : SqlValue :=
  match numbers.integral bits with
  | some n => .integer n
  | none => .real bits

/-- Numbers are stored as numbers, and texts that denote none as they are. -/
def asNumber : SqlValue → SqlValue
  | .text s =>
    match numbers.ofText s with
    | some (.inl n) => .integer n
    | some (.inr bits) => numbers.ofReal bits
    | none => .text s
  | .real bits => numbers.ofReal bits
  | v => v

/-- Numbers are stored as texts. -/
def asText : SqlValue → SqlValue
  | .integer n => .text (toString n)
  | .real bits => .text (numbers.realText bits)
  | v => v

/-- The conversion that a column makes. -/
def coerce : SqlType → SqlValue → SqlValue
  | .text => numbers.asText
  | .integer => numbers.asNumber
  | .boolean => numbers.asNumber
  | .blob => id

variable {numbers}

theorem ofReal_stable (bits : UInt64) :
    numbers.asNumber (numbers.ofReal bits) = numbers.ofReal bits := by
  cases h : numbers.integral bits <;> simp [ofReal, asNumber, h]

/-- A stored value stays as it is when it is stored again. -/
@[simp]
theorem coerce_coerce (type : SqlType) (v : SqlValue) :
    numbers.coerce type (numbers.coerce type v) = numbers.coerce type v := by
  have hnumber : ∀ v, numbers.asNumber (numbers.asNumber v) = numbers.asNumber v := by
    intro v
    cases v with
    | text s =>
        cases h : numbers.ofText s with
        | none => simp [asNumber, h]
        | some number =>
            cases number with
            | inl n => simp [asNumber, h]
            | inr bits => simpa [asNumber, h] using ofReal_stable bits
    | real bits => exact ofReal_stable bits
    | null => rfl
    | integer n => rfl
    | blob bytes => rfl
  cases type with
  | text => cases v <;> rfl
  | integer => exact hnumber v
  | boolean => exact hnumber v
  | blob => rfl

end SqlNumbers

/-! ## Columns and rows -/

namespace SqlColumn

variable (numbers : SqlNumbers)

/-- A stored value of a column. -/
def Fits (column : SqlColumn) (v : SqlValue) : Prop :=
  numbers.coerce column.type v = v ∧ (column.constraint ≠ .none → v ≠ .null)

instance (column : SqlColumn) (v : SqlValue) : Decidable (column.Fits numbers v) :=
  inferInstanceAs (Decidable (_ ∧ _))

/-- The value of a row under a name. -/
def cell : List SqlColumn → String → List SqlValue → Option SqlValue
  | column :: columns, name, v :: row =>
    if column.name = name then some v else cell columns name row
  | _, _, _ => none

/-- What the columns ask of the rows. -/
def Admits (columns : List SqlColumn) (rows : List (List SqlValue)) : Prop :=
  (columns.map name).Nodup ∧ (∀ row ∈ rows, List.Forall₂ (Fits numbers) columns row) ∧
    ∀ column ∈ columns, column.constraint = .key → (rows.map (cell columns column.name)).Nodup

instance (columns : List SqlColumn) (rows : List (List SqlValue)) :
    Decidable (Admits numbers columns rows) :=
  inferInstanceAs (Decidable (_ ∧ _ ∧ _))

/-- The row that is stored for given values. -/
def converted : List SqlColumn → List SqlValue → List SqlValue :=
  List.zipWith fun column v => numbers.coerce column.type v

variable {numbers} {columns : List SqlColumn} {column : SqlColumn} {row : List SqlValue}

theorem cell_eq_none {name : String} (h : name ∉ columns.map SqlColumn.name) :
    cell columns name row = none := by
  induction columns generalizing row with
  | nil => rfl
  | cons first rest ih =>
      cases row with
      | nil => rfl
      | cons v row =>
          simp only [List.map_cons, List.mem_cons, not_or] at h
          rw [cell, if_neg (Ne.symm h.1), ih h.2]

/-- A row has a value in each of its columns. -/
theorem cell_of_fits (hnames : (columns.map name).Nodup)
    (hfits : List.Forall₂ (Fits numbers) columns row) (hmem : column ∈ columns) :
    ∃ v, cell columns column.name row = some v ∧ column.Fits numbers v := by
  induction hfits with
  | nil => cases hmem
  | @cons first v rest row hfirst _ ih =>
      obtain ⟨hnotin, hrest⟩ := List.nodup_cons.mp hnames
      rcases List.mem_cons.mp hmem with rfl | hmem
      · exact ⟨v, by simp [cell], hfirst⟩
      · have hne : first.name ≠ column.name :=
          fun heq => hnotin (heq ▸ List.mem_map_of_mem hmem)
        rw [cell, if_neg hne]
        exact ih hrest hmem

/-- A row is the list of its values. -/
theorem map_cell (hnames : (columns.map name).Nodup) (hlength : columns.length = row.length)
    (default : SqlValue) :
    columns.map (fun column => (cell columns column.name row).getD default) = row := by
  induction columns generalizing row with
  | nil => exact (List.length_eq_zero_iff.mp hlength.symm).symm
  | cons first rest ih =>
      cases row with
      | nil => cases hlength
      | cons v row =>
          obtain ⟨hnotin, hrest⟩ := List.nodup_cons.mp hnames
          rw [List.map_cons, cell, if_pos rfl, Option.getD_some]
          refine congrArg (v :: ·) ((List.map_congr_left fun column hmem => ?_).trans
            (ih hrest (Nat.succ.inj hlength)))
          have hne : first.name ≠ column.name :=
            fun heq => hnotin (heq ▸ List.mem_map_of_mem hmem)
          rw [cell, if_neg hne]

/-- The values of a row that is made column by column. -/
theorem cell_map (f : SqlColumn → SqlValue) (name : String) : cell columns name (columns.map f) =
    (columns.find? fun column => column.name = name).map f := by
  induction columns with
  | nil => rfl
  | cons first rest ih =>
      by_cases hname : first.name = name
      · simp [cell, hname]
      · simp [cell, hname, ih]

/-- A column is found under its name. -/
theorem find?_name (hnames : (columns.map SqlColumn.name).Nodup) (hmem : column ∈ columns) :
    columns.find? (fun other => other.name = column.name) = some column := by
  obtain ⟨found, hfound⟩ : ∃ found,
      columns.find? (fun other => other.name = column.name) = some found :=
    Option.isSome_iff_exists.mp (List.find?_isSome.mpr ⟨column, hmem, by simp⟩)
  have hname : found.name = column.name := by simpa using List.find?_some hfound
  rw [hfound, List.inj_on_of_nodup_map hnames (List.mem_of_find?_eq_some hfound) hmem hname]

/-- The values of a row with one more column. -/
theorem cell_append (hnew : column.name ∉ columns.map name)
    (hlength : columns.length = row.length) (v : SqlValue) (name : String) :
    cell (columns ++ [column]) name (row ++ [v]) =
      if column.name = name then some v else cell columns name row := by
  induction columns generalizing row with
  | nil =>
      rw [List.length_eq_zero_iff.mp hlength.symm]
      rfl
  | cons first rest ih =>
      cases row with
      | nil => cases hlength
      | cons w row =>
          simp only [List.map_cons, List.mem_cons, not_or] at hnew
          rw [List.cons_append, List.cons_append, cell, cell, ih hnew.2 (Nat.succ.inj hlength)]
          by_cases hfirst : first.name = name
          · rw [if_pos hfirst, if_pos hfirst, if_neg fun heq => hnew.1 (heq.trans hfirst.symm)]
          · rw [if_neg hfirst, if_neg hfirst]

theorem coerce_ne_null (type : SqlType) {v : SqlValue} (h : v ≠ .null) :
    numbers.coerce type v ≠ .null := by
  have hreal : ∀ bits, numbers.ofReal bits ≠ .null := by
    intro bits
    unfold SqlNumbers.ofReal
    split <;> simp
  have hnumber : numbers.asNumber v ≠ .null := by
    unfold SqlNumbers.asNumber
    split
    · split
      · simp
      · exact hreal _
      · simp
    · exact hreal _
    · exact h
  cases type with
  | text => cases v <;> simp_all [SqlNumbers.coerce, SqlNumbers.asText]
  | integer => exact hnumber
  | boolean => exact hnumber
  | blob => exact h

end SqlColumn

/-! ## Tables -/

/-- A table. -/
structure SqlTable (numbers : SqlNumbers) where
  columns : List SqlColumn
  rows : List (List SqlValue)
  admits : SqlColumn.Admits numbers columns rows

namespace SqlTable

variable {numbers : SqlNumbers} {table : SqlTable numbers}

theorem ext {first second : SqlTable numbers} (hcolumns : first.columns = second.columns)
    (hrows : first.rows = second.rows) : first = second := by
  cases first
  cases second
  cases hcolumns
  cases hrows
  rfl

/-- A table with these rows, unless a constraint is violated. -/
def make (numbers : SqlNumbers) (columns : List SqlColumn) (rows : List (List SqlValue)) :
    Option (SqlTable numbers) :=
  if h : SqlColumn.Admits numbers columns rows then some ⟨columns, rows, h⟩ else none

theorem make_of_admits {columns : List SqlColumn} {rows : List (List SqlValue)}
    (h : SqlColumn.Admits numbers columns rows) :
    make numbers columns rows = some ⟨columns, rows, h⟩ := dif_pos h

/-- The value of a row under a name. -/
def cell (table : SqlTable numbers) (name : String) (row : List SqlValue) : Option SqlValue :=
  SqlColumn.cell table.columns name row

/-- The rows as records. -/
def records (table : SqlTable numbers) : List (String → Option SqlValue) :=
  table.rows.map fun row name => table.cell name row

/-- The table without the rows that satisfy a condition. -/
def deleteWhere (table : SqlTable numbers) (condition : List SqlValue → Bool) :
    SqlTable numbers where
  columns := table.columns
  rows := table.rows.filter fun row => !condition row
  admits := by
    obtain ⟨hnames, hfits, hkeys⟩ := table.admits
    refine ⟨hnames, fun row hrow => hfits row (List.mem_of_mem_filter hrow), ?_⟩
    exact fun column hcolumn hkey => (hkeys column hcolumn hkey).sublist
      (List.filter_sublist.map _)

theorem length_eq {row : List SqlValue} (hrow : row ∈ table.rows) :
    table.columns.length = row.length :=
  (table.admits.2.1 row hrow).length_eq

end SqlTable

/-! ## Statements -/

/-- What is selected: a column or a literal. -/
inductive SqlTerm
  | column (name : String)
  | literal (v : SqlValue)
  deriving DecidableEq, Repr

/-- Statements that change tables: `CREATE TABLE IF NOT EXISTS`, `INSERT … SELECT` of the
rows where some columns are not null, `DELETE … WHERE` a column has a value, `DROP TABLE`
and two forms of `ALTER TABLE`. -/
inductive SqlStatement
  | createTable (name : String) (columns : List SqlColumn)
  | insertSelect (target : String) (terms : List SqlTerm) (source : String)
      (present : List String)
  | deleteWhere (name column : String) (v : SqlValue)
  | dropTable (name : String)
  | rename (name name' : String)
  | addColumn (name : String) (column : SqlColumn)
  deriving Repr

/-- The tables by their names. -/
abbrev SqlDatabase (numbers : SqlNumbers) := String → Option (SqlTable numbers)

namespace SqlTable

variable {numbers : SqlNumbers}

/-- A selected value of a row. -/
def term (table : SqlTable numbers) (row : List SqlValue) : SqlTerm → Option SqlValue
  | .column name => table.cell name row
  | .literal v => some v

/-- The selected rows. -/
def selected (table : SqlTable numbers) (terms : List SqlTerm) (present : List String) :
    List (List SqlValue) :=
  (table.rows.filter fun row => present.all fun name => table.cell name row ≠ some .null).map
    fun row => terms.filterMap (table.term row)

end SqlTable

/-- The column that a term names. -/
def SqlTerm.name? : SqlTerm → Option String
  | .column name => some name
  | .literal _ => none

namespace SqlStatement

variable {numbers : SqlNumbers}

/-- Execute a statement; `none` when it is refused. -/
def run (db : SqlDatabase numbers) : SqlStatement → Option (SqlDatabase numbers)
  | createTable name columns =>
    match db name with
    | some _ => some db
    | none => (SqlTable.make numbers columns []).map fun table =>
        Function.update db name (some table)
  | insertSelect target terms source present =>
    match db target, db source with
    | some table, some origin =>
      if terms.length = table.columns.length ∧ ∀ name ∈ present ++ terms.filterMap SqlTerm.name?,
          name ∈ origin.columns.map SqlColumn.name then
        (SqlTable.make numbers table.columns (table.rows ++
          (origin.selected terms present).map (SqlColumn.converted numbers table.columns))).map
          fun table => Function.update db target (some table)
      else none
    | _, _ => none
  | deleteWhere name column v =>
    match db name with
    | some table =>
      if column ∈ table.columns.map SqlColumn.name then
        some (Function.update db name
          (some (table.deleteWhere fun row => table.cell column row = some v)))
      else none
    | none => none
  | dropTable name =>
    match db name with
    | some _ => some (Function.update db name none)
    | none => none
  | rename name name' =>
    match db name, db name' with
    | some table, none => some (Function.update (Function.update db name none) name' (some table))
    | _, _ => none
  | addColumn name column =>
    match db name with
    | some table =>
      -- A column with a key cannot be added, one without nulls needs a default.
      if column.constraint = .none ∨ column.constraint = .notNull ∧ column.default ≠ .null then
        (SqlTable.make numbers (table.columns ++ [column]) (table.rows.map fun row =>
          row ++ [numbers.coerce column.type column.default])).map fun table =>
            Function.update db name (some table)
      else none
    | none => none

/-- Execute one statement after the other, up to the first that is refused. -/
def runAll : List SqlStatement → SqlDatabase numbers → SqlDatabase numbers × Bool
  | [], db => (db, true)
  | statement :: rest, db =>
    match statement.run db with
    | some db' => runAll rest db'
    | none => (db, false)

variable {db db' : SqlDatabase numbers} {table : SqlTable numbers}

theorem runAll_cons {statement : SqlStatement} {rest : List SqlStatement}
    (h : statement.run db = some db') : runAll (statement :: rest) db = runAll rest db' := by
  rw [runAll, h]

/-! ## Adding a column -/

theorem cell_added {column : SqlColumn} (hnew : column.name ∉ table.columns.map SqlColumn.name)
    {row : List SqlValue} (hrow : row ∈ table.rows) (v : SqlValue) (name : String) :
    SqlColumn.cell (table.columns ++ [column]) name (row ++ [v]) =
      if column.name = name then some v else table.cell name row :=
  SqlColumn.cell_append hnew (table.length_eq hrow) v name

/-- A column that is no key is satisfied by its default. -/
theorem admits_added {column : SqlColumn} (hnew : column.name ∉ table.columns.map SqlColumn.name)
    (hconstraint : column.constraint = .none ∨
      column.constraint = .notNull ∧ column.default ≠ .null) :
    SqlColumn.Admits numbers (table.columns ++ [column])
      (table.rows.map fun row => row ++ [numbers.coerce column.type column.default]) := by
  obtain ⟨hnames, hfits, hkeys⟩ := table.admits
  refine ⟨?_, ?_, ?_⟩
  · rw [List.map_append, List.nodup_append]
    refine ⟨hnames, List.nodup_singleton _, fun name hname name' hname' heq => ?_⟩
    rw [heq, List.mem_singleton.mp hname'] at hname
    exact hnew hname
  · intro row hrow
    obtain ⟨old, hold, rfl⟩ := List.mem_map.mp hrow
    refine List.rel_append (hfits old hold) (.cons ⟨SqlNumbers.coerce_coerce _ _, ?_⟩ .nil)
    intro hnone
    rcases hconstraint with h | ⟨-, hdefault⟩
    · exact absurd h hnone
    · exact SqlColumn.coerce_ne_null _ hdefault
  · intro other hother hkey
    have hmem : other ∈ table.columns := by
      rcases List.mem_append.mp hother with hmem | hmem
      · exact hmem
      · rcases hconstraint with h | ⟨h, -⟩ <;>
          simp [List.mem_singleton.mp hmem, h] at hkey
    have hne : column.name ≠ other.name :=
      fun heq => hnew (heq ▸ List.mem_map_of_mem hmem)
    rw [List.map_map]
    convert hkeys other hmem hkey using 1
    refine List.map_congr_left fun row hrow => ?_
    rw [Function.comp_apply, cell_added hnew hrow, if_neg hne]
    rfl

/-- The rows get the default of the new column. -/
theorem addColumn_run {name : String} {column : SqlColumn} (htable : db name = some table)
    (hnew : column.name ∉ table.columns.map SqlColumn.name)
    (hconstraint : column.constraint = .none ∨
      column.constraint = .notNull ∧ column.default ≠ .null) :
    ∃ table', run db (.addColumn name column) = some (Function.update db name (some table')) ∧
      table'.columns = table.columns ++ [column] ∧
      table'.records = table.records.map fun record => Function.update record column.name
        (some (numbers.coerce column.type column.default)) := by
  have hadmits := admits_added hnew hconstraint
  refine ⟨⟨_, _, hadmits⟩, ?_, rfl, ?_⟩
  · simp only [run, htable, if_pos hconstraint, SqlTable.make_of_admits hadmits, Option.map_some]
  · simp only [SqlTable.records, List.map_map]
    refine List.map_congr_left fun row hrow => funext fun name => ?_
    simp only [Function.comp_apply, Function.update_apply, SqlTable.cell]
    rw [cell_added hnew hrow]
    by_cases heq : column.name = name
    · rw [if_pos heq, if_pos heq.symm]
    · rw [if_neg heq, if_neg (Ne.symm heq), SqlTable.cell]

/-! ## Removing columns -/

/-- The columns can be filled from a table: they exist there with constraints as strong, and
the keys keep their types. -/
structure FilledFrom (columns : List SqlColumn) (table : SqlTable numbers) : Prop where
  nodup : (columns.map SqlColumn.name).Nodup
  source : ∀ column ∈ columns, ∃ old ∈ table.columns, old.name = column.name ∧
    (column.constraint ≠ .none → old.constraint ≠ .none) ∧
    (column.constraint = .key → old.constraint = .key ∧ old.type = column.type)

/-- The row that is made from an old one. -/
def refilled (columns : List SqlColumn) (table : SqlTable numbers) (row : List SqlValue) :
    List SqlValue :=
  columns.map fun column => numbers.coerce column.type ((table.cell column.name row).getD .null)

/-- A new table is filled from an old one and takes its name, as recommended for the removal
of columns. -/
def rebuild (temporary : String) (columns : List SqlColumn) (name : String) :
    List SqlStatement :=
  [.createTable temporary columns,
    .insertSelect temporary (columns.map fun column => .column column.name) name [],
    .dropTable name,
    .rename temporary name]

section Rebuild

variable {columns : List SqlColumn}

theorem FilledFrom.cell_old (h : FilledFrom columns table) {row : List SqlValue}
    (hrow : row ∈ table.rows) {column : SqlColumn} (hmem : column ∈ columns) :
    ∃ v, table.cell column.name row = some v ∧ (column.constraint ≠ .none → v ≠ .null) := by
  obtain ⟨old, hold, hname, hnull, -⟩ := h.source column hmem
  obtain ⟨v, hv, -, hfits⟩ :=
    SqlColumn.cell_of_fits table.admits.1 (table.admits.2.1 row hrow) hold
  exact ⟨v, hname ▸ hv, fun hconstraint => hfits (hnull hconstraint)⟩

theorem FilledFrom.cell_refilled (h : FilledFrom columns table) (row : List SqlValue)
    {column : SqlColumn} (hmem : column ∈ columns) :
    SqlColumn.cell columns column.name (refilled columns table row) =
      some (numbers.coerce column.type ((table.cell column.name row).getD .null)) := by
  rw [refilled, SqlColumn.cell_map, SqlColumn.find?_name h.nodup hmem, Option.map_some]

/-- The rows that are inserted. -/
theorem FilledFrom.inserted (h : FilledFrom columns table) :
    (table.selected (columns.map fun column => .column column.name) []).map
        (SqlColumn.converted numbers columns) = table.rows.map (refilled columns table) := by
  have hall : table.rows.filter (fun row => ([] : List String).all fun name =>
      table.cell name row ≠ some .null) = table.rows := List.filter_eq_self.mpr fun _ _ => rfl
  rw [SqlTable.selected, hall, List.map_map]
  refine List.map_congr_left fun row hrow => ?_
  have hselected : ∀ part : List SqlColumn, (∀ column ∈ part, column ∈ columns) →
      SqlColumn.converted numbers part
        ((part.map fun column => SqlTerm.column column.name).filterMap (table.term row)) =
          refilled part table row := by
    intro part hpart
    induction part with
    | nil => rfl
    | cons column rest ih =>
        obtain ⟨v, hv, -⟩ := h.cell_old hrow (hpart column List.mem_cons_self)
        have hrest := ih fun column hmem => hpart column (List.mem_cons_of_mem _ hmem)
        have hterm : table.term row (.column column.name) = some v := hv
        rw [List.map_cons, List.filterMap_cons_some hterm]
        simp only [SqlColumn.converted, refilled, List.zipWith_cons_cons, List.map_cons, hv,
          Option.getD_some] at hrest ⊢
        rw [hrest]
  exact hselected columns fun _ hmem => hmem

theorem FilledFrom.admits (h : FilledFrom columns table) :
    SqlColumn.Admits numbers columns (table.rows.map (refilled columns table)) := by
  refine ⟨h.nodup, ?_, ?_⟩
  · intro row hrow
    obtain ⟨old, hold, rfl⟩ := List.mem_map.mp hrow
    rw [refilled, List.forall₂_map_right_iff, List.forall₂_same]
    intro column hmem
    obtain ⟨v, hv, hnull⟩ := h.cell_old hold hmem
    rw [hv, Option.getD_some]
    exact ⟨SqlNumbers.coerce_coerce _ _, fun hconstraint =>
      SqlColumn.coerce_ne_null _ (hnull hconstraint)⟩
  · intro column hmem hkey
    obtain ⟨old, hold, hname, -, hkeys⟩ := h.source column hmem
    obtain ⟨holdkey, htype⟩ := hkeys hkey
    rw [List.map_map]
    convert table.admits.2.2 old hold holdkey using 1
    refine List.map_congr_left fun row hrow => ?_
    obtain ⟨v, hv, hfits, -⟩ :=
      SqlColumn.cell_of_fits table.admits.1 (table.admits.2.1 row hrow) hold
    rw [Function.comp_apply, h.cell_refilled row hmem, hv, SqlTable.cell, ← hname, hv,
      Option.getD_some, ← htype, hfits]

/-- Rebuilding a table keeps its rows, in their order, with the values of the columns that
stay. -/
theorem rebuild_run {temporary name : String} (h : FilledFrom columns table)
    (htable : db name = some table) (hfree : db temporary = none) :
    ∃ table', runAll (rebuild temporary columns name) db =
        (Function.update db name (some table'), true) ∧
      table'.columns = columns ∧ table'.rows = table.rows.map (refilled columns table) := by
  have hne : name ≠ temporary := by
    rintro rfl
    rw [htable] at hfree
    cases hfree
  have hempty : SqlColumn.Admits numbers columns [] :=
    ⟨h.nodup, fun _ hrow => (by cases hrow), fun _ _ _ => List.nodup_nil⟩
  have hnames : ∀ other ∈ [] ++ (columns.map fun column => SqlTerm.column column.name).filterMap
      SqlTerm.name?, other ∈ table.columns.map SqlColumn.name := by
    intro other hother
    simp only [List.nil_append, List.filterMap_map, List.mem_filterMap, Function.comp_apply,
      SqlTerm.name?, Option.some.injEq] at hother
    obtain ⟨column, hmem, rfl⟩ := hother
    obtain ⟨old, hold, hname, -⟩ := h.source column hmem
    exact hname ▸ List.mem_map_of_mem hold
  -- The database after each of the first three statements.
  let created := Function.update db temporary (some ⟨columns, [], hempty⟩)
  let filled := Function.update db temporary
    (some ⟨columns, table.rows.map (refilled columns table), h.admits⟩)
  let dropped := Function.update filled name none
  have hcreate : run db (.createTable temporary columns) = some created := by
    simp [run, hfree, SqlTable.make_of_admits hempty, created]
  have hinsert : run created (.insertSelect temporary
      (columns.map fun column => .column column.name) name []) = some filled := by
    simp only [created, run, Function.update_self, Function.update_of_ne hne, htable]
    rw [if_pos ⟨List.length_map _, hnames⟩]
    simp only [List.nil_append, h.inserted, SqlTable.make_of_admits h.admits, Option.map_some,
      Function.update_idem, filled]
  have hdrop : run filled (.dropTable name) = some dropped := by
    simp only [filled, dropped, run, Function.update_of_ne hne, htable]
  have hrename : run dropped (.rename temporary name) = some (Function.update db name
      (some ⟨columns, table.rows.map (refilled columns table), h.admits⟩)) := by
    simp only [dropped, filled, run, Function.update_of_ne (Ne.symm hne), Function.update_self,
      Option.some.injEq]
    funext other
    by_cases hname : other = name
    · subst hname
      rw [Function.update_self, Function.update_self]
    · rw [Function.update_of_ne hname, Function.update_of_ne hname]
      by_cases htemporary : other = temporary
      · subst htemporary
        rw [Function.update_self, hfree]
      · rw [Function.update_of_ne htemporary, Function.update_of_ne hname,
          Function.update_of_ne htemporary]
  refine ⟨⟨_, _, h.admits⟩, ?_, rfl, rfl⟩
  rw [rebuild, runAll_cons hcreate, runAll_cons hinsert, runAll_cons hdrop, runAll_cons hrename]
  rfl

end Rebuild

end SqlStatement

end SafeWallet
