/-
# Single rows of a table

The statements with which a program keeps objects in a table, one row for each: a row is
inserted in the place of those with its key, and rows are deleted and selected by the
value of a column.

A table with one key behaves like the list of its rows in which every insertion first
takes out the row with the same key. A row is refused for nothing but a null.
-/

import SafeWallet.Base.Sql

namespace SafeWallet

namespace SqlValue

/-- A text without capital letters. -/
def toLower : SqlValue → SqlValue
  | .text s => .text s.toLower
  | v => v

/-- The kinds of values in their order. -/
def rank : SqlValue → ℕ
  | .null => 0
  | .integer _ => 1
  | .real _ => 1
  | .text _ => 2
  | .blob _ => 3

/-- The order of values, given the one of numbers. -/
def le (numberLE : SqlValue → SqlValue → Bool) : SqlValue → SqlValue → Bool
  | .text s, .text s' => s < s' ∨ s = s'
  | .blob bytes, .blob bytes' => bytes < bytes' ∨ bytes = bytes'
  | v, v' => v.rank < v'.rank ∨ v.rank = v'.rank ∧ numberLE v v'

end SqlValue

namespace SqlTable

variable {numbers : SqlNumbers} (table : SqlTable numbers)

/-- The row that is inserted with values for some columns. A column without a value gets its
default, and so does a column that excludes the null it was given. -/
def insertedRow (names : List String) (values : List SqlValue) : List SqlValue :=
  table.columns.map fun column =>
    let v := numbers.coerce column.type (((names.zip values).lookup column.name).getD
      column.default)
    if column.constraint ≠ .none ∧ v = .null then numbers.coerce column.type column.default else v

/-- Two rows have the same value in a key. -/
def clashes (row other : List SqlValue) : Bool :=
  table.columns.any fun column =>
    column.constraint = .key ∧ table.cell column.name row = table.cell column.name other

/-- `INSERT OR REPLACE`. -/
def insertOrReplace (names : List String) (values : List SqlValue) : Option (SqlTable numbers) :=
  if names.length = values.length ∧ ∀ name ∈ names, name ∈ table.columns.map SqlColumn.name then
    let row := table.insertedRow names values
    make numbers table.columns ((table.rows.filter fun other => !table.clashes row other) ++ [row])
  else none

/-- The row has a value in a column, converted like the values of the column. No row has a
null. -/
def equals (name : String) (v : SqlValue) (row : List SqlValue) : Bool :=
  match table.columns.find? fun column => column.name = name with
  | some column => numbers.coerce column.type v ≠ .null ∧
      table.cell name row = some (numbers.coerce column.type v)
  | none => false

/-- The same without regard to the case of the letters of ASCII. -/
def equalsNoCase (name : String) (v : SqlValue) (row : List SqlValue) : Bool :=
  match table.columns.find? fun column => column.name = name with
  | some column => numbers.coerce column.type v ≠ .null ∧
      (table.cell name row).map SqlValue.toLower = some (numbers.coerce column.type v).toLower
  | none => false

/-- `ORDER BY` a column, or the numbers of the rows. -/
def ordered (numberLE : SqlValue → SqlValue → Bool) (orderBy : Option String)
    (rows : List (List SqlValue)) : List (List SqlValue) :=
  match orderBy with
  | none => rows
  | some name => rows.mergeSort fun row other =>
      ((table.cell name row).getD .null).le numberLE ((table.cell name other).getD .null)

/-- `DELETE … WHERE` a column has a value. -/
def deleteEqual (name : String) (v : SqlValue) : Option (SqlTable numbers) :=
  if name ∈ table.columns.map SqlColumn.name then some (table.deleteWhere (table.equals name v))
  else none

/-- The values of some rows in some columns. -/
def values (names : List String) (rows : List (List SqlValue)) : Option (List (List SqlValue)) :=
  if ∀ name ∈ names, name ∈ table.columns.map SqlColumn.name then
    some (rows.map fun row => names.map fun name => (table.cell name row).getD .null)
  else none

end SqlTable

/-! ## One key -/

namespace SqlColumn

variable {numbers : SqlNumbers}

/-- The columns of a table with one key and without defaults. An `INTEGER PRIMARY KEY` would
take the place of the `rowid`, and rows are listed by it: the key is of another type, so that
the order of rows is the one in which they were inserted. -/
structure KeyedBy (key : SqlColumn) (columns : List SqlColumn) : Prop where
  nodup : (columns.map name).Nodup
  mem : key ∈ columns
  constraint : key.constraint = .key
  only : ∀ column ∈ columns, column.constraint = .key → column = key
  plain : ∀ column ∈ columns, column.default = .null
  type : key.type ≠ .integer

variable {key : SqlColumn} {columns : List SqlColumn} {values row : List SqlValue}

/-- Values for all columns, found by the names of the columns. -/
theorem map_lookup (f : SqlColumn → SqlValue → SqlValue) (default : SqlColumn → SqlValue)
    (hnames : (columns.map name).Nodup) (hlength : values.length = columns.length) :
    (columns.map fun column => f column
      ((((columns.map name).zip values).lookup column.name).getD (default column))) =
      List.zipWith f columns values := by
  induction columns generalizing values with
  | nil => rfl
  | cons first rest ih =>
      cases values with
      | nil => cases hlength
      | cons v values =>
          obtain ⟨hnotin, hrest⟩ := List.nodup_cons.mp hnames
          have hothers : ∀ column ∈ rest, ((first.name, v) ::
              (rest.map name).zip values).lookup column.name =
              ((rest.map name).zip values).lookup column.name := by
            intro column hmem
            have hne : (column.name == first.name) = false := by
              simpa using fun heq : column.name = first.name =>
                hnotin (heq ▸ List.mem_map_of_mem hmem)
            rw [List.lookup_cons, hne]
          rw [List.map_cons, List.map_cons, List.zip_cons_cons, List.zipWith_cons_cons]
          refine congrArg₂ List.cons (by simp) ?_
          rw [← ih hrest (Nat.succ.inj hlength)]
          exact List.map_congr_left fun column hmem => by rw [hothers column hmem]

theorem coerce_eq_null_iff {type : SqlType} {v : SqlValue} :
    numbers.coerce type v = .null ↔ v = .null := by
  constructor
  · intro h
    by_contra hne
    exact coerce_ne_null type hne h
  · rintro rfl
    cases type <;> rfl

/-- None of the values is a null where nulls are excluded. -/
def Complete (columns : List SqlColumn) (values : List SqlValue) : Prop :=
  List.Forall₂ (fun column v => column.constraint ≠ .none → v ≠ .null) columns values

instance (columns : List SqlColumn) (values : List SqlValue) :
    Decidable (Complete columns values) :=
  inferInstanceAs (Decidable (List.Forall₂ _ _ _))

/-- A converted row is refused for nothing but a null. -/
theorem fits_converted (hlength : values.length = columns.length) :
    List.Forall₂ (Fits numbers) columns (converted numbers columns values) ↔
      Complete columns values := by
  induction columns generalizing values with
  | nil =>
      rw [List.length_eq_zero_iff.mp hlength]
      exact ⟨fun _ => .nil, fun _ => .nil⟩
  | cons first rest ih =>
      cases values with
      | nil => cases hlength
      | cons v values =>
          have hfits : first.Fits numbers (numbers.coerce first.type v) ↔
              (first.constraint ≠ .none → v ≠ .null) := by
            simp [Fits, coerce_eq_null_iff]
          rw [converted, List.zipWith_cons_cons, List.forall₂_cons, hfits, Complete,
            List.forall₂_cons]
          exact and_congr_right fun _ => ih (Nat.succ.inj hlength)

/-- The value of a column is converted with the others. -/
theorem cell_converted (hnames : (columns.map name).Nodup) (hmem : key ∈ columns) :
    cell columns key.name (converted numbers columns values) =
      (cell columns key.name values).map (numbers.coerce key.type) := by
  induction columns generalizing values with
  | nil => cases hmem
  | cons first rest ih =>
      obtain ⟨hnotin, hrest⟩ := List.nodup_cons.mp hnames
      cases values with
      | nil => rfl
      | cons v values =>
          rw [converted, List.zipWith_cons_cons, cell, cell]
          rcases List.mem_cons.mp hmem with rfl | hmem
          · rw [if_pos rfl, if_pos rfl, Option.map_some]
          · have hne : first.name ≠ key.name :=
              fun heq => hnotin (heq ▸ List.mem_map_of_mem hmem)
            rw [if_neg hne, if_neg hne]
            exact ih hrest hmem

end SqlColumn

namespace SqlTable

open SqlColumn

variable {numbers : SqlNumbers} {table : SqlTable numbers} {key : SqlColumn}
  {values row : List SqlValue}

theorem insertedRow_eq (h : key.KeyedBy table.columns)
    (hlength : values.length = table.columns.length) :
    table.insertedRow (table.columns.map SqlColumn.name) values =
      converted numbers table.columns values := by
  have hrow : table.insertedRow (table.columns.map SqlColumn.name) values =
      table.columns.map fun column => numbers.coerce column.type
        ((((table.columns.map SqlColumn.name).zip values).lookup column.name).getD .null) := by
    refine List.map_congr_left fun column hmem => ?_
    simp only [h.plain column hmem]
    split
    · rename_i hnull
      rw [coerce_eq_null_iff.mpr rfl, hnull.2]
    · rfl
  rw [hrow]
  exact map_lookup (fun column => numbers.coerce column.type) (fun _ => .null) h.nodup hlength

theorem clashes_eq (h : key.KeyedBy table.columns) (other : List SqlValue) :
    table.clashes row other = decide (table.cell key.name row = table.cell key.name other) := by
  rw [clashes, Bool.eq_iff_iff, List.any_eq_true, decide_eq_true_iff]
  constructor
  · rintro ⟨column, hmem, hcolumn⟩
    obtain ⟨hkey, hsame⟩ := of_decide_eq_true hcolumn
    exact h.only column hmem hkey ▸ hsame
  · exact fun hsame => ⟨key, h.mem, decide_eq_true ⟨h.constraint, hsame⟩⟩

/-- The rows after an insertion. -/
theorem insertOrReplace_of_complete (h : key.KeyedBy table.columns)
    (hlength : values.length = table.columns.length) (hcomplete : Complete table.columns values) :
    ∃ table', table.insertOrReplace (table.columns.map SqlColumn.name) values = some table' ∧
      table'.columns = table.columns ∧
      table'.rows = (table.rows.filter fun other => table.cell key.name other ≠
        table.cell key.name (converted numbers table.columns values)) ++
          [converted numbers table.columns values] := by
  obtain ⟨hnames, hfits, hkeys⟩ := table.admits
  have hothers : ∀ row : List SqlValue, (table.rows.filter fun other => !table.clashes row other) =
      table.rows.filter fun other => table.cell key.name other ≠ table.cell key.name row := by
    intro row
    refine List.filter_congr fun other _ => ?_
    rw [clashes_eq h, ← decide_not]
    exact decide_eq_decide.mpr ⟨fun hne heq => hne heq.symm, fun hne heq => hne heq.symm⟩
  have hadmits : Admits numbers table.columns ((table.rows.filter fun other =>
      table.cell key.name other ≠ table.cell key.name (converted numbers table.columns values)) ++
        [converted numbers table.columns values]) := by
    refine ⟨hnames, fun row hrow => ?_, fun column hmem hkey => ?_⟩
    · rcases List.mem_append.mp hrow with hold | hnew
      · exact hfits row (List.mem_of_mem_filter hold)
      · rw [List.mem_singleton.mp hnew]
        exact (fits_converted hlength).mpr hcomplete
    · rw [h.only column hmem hkey, List.map_append, List.nodup_append]
      refine ⟨(hkeys key h.mem h.constraint).sublist (List.filter_sublist.map _),
        List.nodup_singleton _, fun v hv v' hv' heq => ?_⟩
      obtain ⟨other, hother, rfl⟩ := List.mem_map.mp hv
      have hne := of_decide_eq_true (List.mem_filter.mp hother).2
      exact hne (heq.trans (List.mem_singleton.mp hv'))
  refine ⟨⟨_, _, hadmits⟩, ?_, rfl, rfl⟩
  rw [insertOrReplace, if_pos ⟨by simp [hlength], fun name hname => hname⟩]
  simp only [insertedRow_eq h hlength, hothers, make_of_admits hadmits]

/-- An insertion is refused for a null. -/
theorem insertOrReplace_of_not_complete (h : key.KeyedBy table.columns)
    (hlength : values.length = table.columns.length)
    (hcomplete : ¬ Complete table.columns values) :
    table.insertOrReplace (table.columns.map SqlColumn.name) values = none := by
  rw [insertOrReplace, if_pos ⟨by simp [hlength], fun name hname => hname⟩]
  simp only [insertedRow_eq h hlength]
  refine dif_neg fun hadmits => hcomplete ?_
  exact (fits_converted hlength).mp
    (hadmits.2.1 _ (List.mem_append_right _ (List.mem_singleton_self _)))

/-- The rows with a value in the key. -/
theorem equals_key (h : key.KeyedBy table.columns) {v : SqlValue} (hnull : v ≠ .null)
    (hstable : numbers.coerce key.type v = v) (row : List SqlValue) :
    table.equals key.name v row = decide (table.cell key.name row = some v) := by
  rw [equals, find?_name h.nodup h.mem]
  simp [hstable, hnull]

/-- All columns of a row. -/
theorem values_eq (rows : List (List SqlValue)) (hrows : ∀ row ∈ rows, row ∈ table.rows) :
    table.values (table.columns.map SqlColumn.name) rows = some rows := by
  rw [SqlTable.values, if_pos fun name hname => hname]
  refine congrArg some ((List.map_congr_left fun row hrow => ?_).trans (List.map_id rows))
  rw [List.map_map]
  exact map_cell table.admits.1 (table.length_eq (hrows row hrow)) .null

end SqlTable

end SafeWallet
