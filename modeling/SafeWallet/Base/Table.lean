/-
# Tables with a primary key

A repository is a table whose rows have pairwise different keys. Saving a row
replaces the row with its key and puts the new one last, because the statement
used for it (`INSERT OR REPLACE`) deletes the old row and assigns a new row
number; queries that ask for the first row see that order.
-/

import Mathlib.Data.List.Nodup

namespace SafeWallet

universe u v

variable {Row : Type u} {Key : Type v}

/-- Rows in the order of their row numbers, with pairwise different keys. -/
structure Table (key : Row → Key) where
  rows : List Row
  keys_nodup : (rows.map key).Nodup

namespace Table

variable {key : Row → Key}

theorem ext {first second : Table key} (h : first.rows = second.rows) : first = second := by
  cases first
  cases second
  cases h
  rfl

/-- The empty table. -/
def empty : Table key := ⟨[], List.nodup_nil⟩

variable [DecidableEq Key]

/-- The rows with another key. -/
def others (table : Table key) (k : Key) : List Row := table.rows.filter fun row => key row ≠ k

/-- Delete the row with a key, if there is one. -/
def remove (table : Table key) (k : Key) : Table key where
  rows := table.others k
  keys_nodup := table.keys_nodup.sublist (List.filter_sublist.map key)

/-- Insert a row in place of the one with its key. -/
def save (table : Table key) (row : Row) : Table key where
  rows := table.others (key row) ++ [row]
  keys_nodup := by
    rw [List.map_append, List.nodup_append]
    refine ⟨(table.remove (key row)).keys_nodup, List.nodup_singleton _, ?_⟩
    intro k hk k' hk' heq
    obtain ⟨other, hother, rfl⟩ := List.mem_map.mp hk
    have : key other ≠ key row := by simpa using (List.mem_filter.mp hother).2
    exact this (heq.trans (List.mem_singleton.mp hk'))

/-- The row with a key. -/
def find (table : Table key) (k : Key) : Option Row := table.rows.find? fun row => key row = k

variable {table : Table key} {row row' : Row} {k : Key}

theorem mem_of_find (h : table.find k = some row) : row ∈ table.rows ∧ key row = k :=
  ⟨List.mem_of_find?_eq_some h, by simpa using List.find?_some h⟩

/-- A row is found under its key. -/
theorem find_of_mem (h : row ∈ table.rows) : table.find (key row) = some row := by
  obtain ⟨rows, hnodup⟩ := table
  induction rows with
  | nil => cases h
  | cons first rest ih =>
      obtain ⟨hfirst, hrest⟩ := List.nodup_cons.mp hnodup
      rcases List.mem_cons.mp h with rfl | hmem
      · simp [find]
      · have hne : key first ≠ key row := by
          intro heq
          exact hfirst (heq ▸ List.mem_map_of_mem hmem)
        simpa [find, hne] using ih hrest hmem

theorem find_eq_some_iff : table.find k = some row ↔ row ∈ table.rows ∧ key row = k :=
  ⟨mem_of_find, fun h => h.2 ▸ find_of_mem h.1⟩

theorem find_eq_none_iff : table.find k = none ↔ ∀ row ∈ table.rows, key row ≠ k := by
  simp [find]

@[simp]
theorem mem_rows_save : row' ∈ (table.save row).rows ↔
    row' = row ∨ (row' ∈ table.rows ∧ key row' ≠ key row) := by
  simp [save, others, or_comm]

@[simp]
theorem mem_rows_remove : row ∈ (table.remove k).rows ↔ row ∈ table.rows ∧ key row ≠ k := by
  simp [remove, others]

/-- A query sees the row saved last under its key and is not affected by rows
saved under other keys. -/
theorem find_save : (table.save row).find k = if key row = k then some row else table.find k := by
  split
  · rename_i heq
    rw [find_eq_some_iff]
    exact ⟨by simp, heq⟩
  · rename_i hne
    cases hfind : table.find k with
    | none =>
        rw [find_eq_none_iff] at hfind ⊢
        intro other hother
        rcases mem_rows_save.mp hother with rfl | ⟨hmem, -⟩
        · exact hne
        · exact hfind other hmem
    | some other =>
        obtain ⟨hmem, hkey⟩ := mem_of_find hfind
        rw [find_eq_some_iff]
        exact ⟨by simp [hmem, hkey, Ne.symm hne], hkey⟩

@[simp]
theorem find_save_self : (table.save row).find (key row) = some row := by
  simp [find_save]

/-- Removing a row is visible under its key only. -/
theorem find_remove {k' : Key} :
    (table.remove k').find k = if k' = k then none else table.find k := by
  split
  · rename_i heq
    rw [find_eq_none_iff]
    intro other hother
    exact heq ▸ (mem_rows_remove.mp hother).2
  · rename_i hne
    cases hfind : table.find k with
    | none =>
        rw [find_eq_none_iff] at hfind ⊢
        exact fun other hother => hfind other (mem_rows_remove.mp hother).1
    | some other =>
        obtain ⟨hmem, hkey⟩ := mem_of_find hfind
        rw [find_eq_some_iff]
        exact ⟨by simp [hmem, hkey, Ne.symm hne], hkey⟩

/-- Save some rows, one after the other. -/
def saveAll (table : Table key) (rows : List Row) : Table key := rows.foldl save table

/-- Rows with different keys are all there in the end, in place of those with their keys. -/
theorem mem_rows_saveAll {rows : List Row} (h : (rows.map key).Nodup) :
    row ∈ (table.saveAll rows).rows ↔
      row ∈ rows ∨ (row ∈ table.rows ∧ key row ∉ rows.map key) := by
  induction rows generalizing table with
  | nil => simp [saveAll]
  | cons first rest ih =>
      have hstep : table.saveAll (first :: rest) = (table.save first).saveAll rest := rfl
      rw [List.map_cons, List.nodup_cons] at h
      rw [hstep, ih h.2, mem_rows_save, List.mem_cons, List.map_cons, List.mem_cons, not_or]
      constructor
      · rintro (hrest | ⟨rfl | ⟨hmem, hne⟩, hnot⟩)
        · exact .inl (.inr hrest)
        · exact .inl (.inl rfl)
        · exact .inr ⟨hmem, hne, hnot⟩
      · rintro ((rfl | hrest) | ⟨hmem, hne, hnot⟩)
        · exact .inr ⟨.inl rfl, h.1⟩
        · exact .inl hrest
        · exact .inr ⟨.inr ⟨hmem, hne⟩, hnot⟩

/-- Delete the rows with some keys, one after the other. -/
def removeAll (table : Table key) (ks : List Key) : Table key := ks.foldl remove table

@[simp]
theorem mem_rows_removeAll {ks : List Key} :
    row ∈ (table.removeAll ks).rows ↔ row ∈ table.rows ∧ key row ∉ ks := by
  induction ks generalizing table with
  | nil => simp [removeAll]
  | cons k rest ih =>
      have hstep : table.removeAll (k :: rest) = (table.remove k).removeAll rest := rfl
      rw [hstep, ih, mem_rows_remove, List.mem_cons, not_or, and_assoc]

theorem rows_removeAll {ks : List Key} :
    (table.removeAll ks).rows = table.rows.filter fun row => key row ∉ ks := by
  induction ks generalizing table with
  | nil => simp [removeAll]
  | cons k rest ih =>
      have hstep : table.removeAll (k :: rest) = (table.remove k).removeAll rest := rfl
      rw [hstep, ih]
      simp only [remove, others, List.filter_filter]
      apply List.filter_congr
      intro row _
      rw [Bool.eq_iff_iff]
      simp only [Bool.and_eq_true, decide_eq_true_eq, List.mem_cons, not_or, and_comm]

/-- Removing rows is visible under their keys only. -/
theorem find_removeAll {ks : List Key} :
    (table.removeAll ks).find k = if k ∈ ks then none else table.find k := by
  induction ks generalizing table with
  | nil => simp [removeAll]
  | cons k' rest ih =>
      have hstep : table.removeAll (k' :: rest) = (table.remove k').removeAll rest := rfl
      rw [hstep, ih, find_remove]
      by_cases hrest : k ∈ rest
      · simp [hrest]
      · simp only [hrest, if_false, List.mem_cons, or_false, eq_comm]

/-- A row under one of the removed keys is the removed row. -/
theorem eq_of_key_mem {rows : List Row} (h : row ∈ table.rows) (hrows : ∀ r ∈ rows, r ∈ table.rows)
    (hkey : key row ∈ rows.map key) : row ∈ rows := by
  obtain ⟨other, hother, heq⟩ := List.mem_map.mp hkey
  have hsame := (find_of_mem h).symm.trans (heq ▸ find_of_mem (hrows other hother))
  cases hsame
  exact hother

/-- Removing the rows that satisfy a condition leaves the others. -/
theorem mem_rows_removeAll_filter {p : Row → Bool} :
    row ∈ (table.removeAll ((table.rows.filter p).map key)).rows ↔
      row ∈ table.rows ∧ p row = false := by
  rw [mem_rows_removeAll, and_congr_right_iff]
  intro hrow
  constructor
  · intro hnot
    by_contra hp
    exact hnot (List.mem_map_of_mem (List.mem_filter.mpr ⟨hrow, by simpa using hp⟩))
  · intro hp hmem
    have hrows : ∀ r ∈ table.rows.filter p, r ∈ table.rows := fun r hr => (List.mem_filter.mp hr).1
    have hfilter := eq_of_key_mem hrow hrows hmem
    rw [(List.mem_filter.mp hfilter).2] at hp
    cases hp

/-- A query that shares no row with the removed ones is not affected. -/
theorem filter_removeAll {p q : Row → Bool} (h : ∀ row ∈ table.rows, p row = true → q row = false) :
    (table.removeAll ((table.rows.filter p).map key)).rows.filter q = table.rows.filter q := by
  rw [rows_removeAll, List.filter_filter]
  apply List.filter_congr
  intro row hrow
  rw [Bool.eq_iff_iff]
  simp only [Bool.and_eq_true, decide_eq_true_eq, and_iff_left_iff_imp]
  intro hq hmem
  have hp := eq_of_key_mem hrow (fun r hr => (List.mem_filter.mp hr).1) hmem
  rw [h row hrow (List.mem_filter.mp hp).2] at hq
  cases hq

theorem others_of_find_eq_none (h : table.find k = none) : table.others k = table.rows := by
  rw [others, List.filter_eq_self]
  simpa using find_eq_none_iff.mp h

/-- A row that was added under a new key and removed again leaves no trace. -/
theorem remove_save_of_find_eq_none (h : table.find (key row) = none) :
    (table.save row).remove (key row) = table := by
  apply ext
  have hothers := others_of_find_eq_none h
  rw [others] at hothers
  simp [remove, save, others, List.filter_append]
  simpa using hothers

end Table

end SafeWallet
