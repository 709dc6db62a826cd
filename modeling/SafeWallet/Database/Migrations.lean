/-
# Database migrations

Every version of the app registers migrations and asks for the pending ones to be
applied, all of them in one transaction. Applied migrations are recorded by their
identifiers in a table of the database. What is pending is what follows the greatest
recorded identifier in the list of registered migrations, or the whole list when that
identifier is not registered any more.

The identifiers are texts, and two orders of texts meet here. The database looks for the
greatest recorded one by its bytes, and what it returns is read up to the first zero; the
program sorts and compares by canonical forms, to which an accent behind a letter and the
letter with the accent are the same. The contents of the database and what may go wrong
during a set-up are parameters.
-/

import Mathlib.Data.List.Sort
import Mathlib.Data.String.Basic
import Mathlib.Logic.Relation
import SafeWallet.Base.Table

namespace SafeWallet

universe u v w

/-- A text as a C string, which ends at the first zero. -/
def upToZero (s : String) : String := String.ofList (s.toList.takeWhile (· ≠ '\x00'))

/-- How the program compares texts: by canonical forms. A text that ends at a zero is not greater
than one that goes on. -/
structure TextOrder (κ : Type u) [LinearOrder κ] where
  canonical : String → κ
  canonical_upToZero_le : ∀ s, canonical (upToZero s) ≤ canonical s

namespace TextOrder

variable {κ : Type u} [LinearOrder κ] (order : TextOrder κ)

/-- `==` of two texts. -/
def Same (s t : String) : Prop := order.canonical s = order.canonical t

/-- `<` of two texts. -/
def Less (s t : String) : Prop := order.canonical s < order.canonical t

instance (s t : String) : Decidable (order.Same s t) :=
  inferInstanceAs (Decidable (order.canonical s = order.canonical t))

instance (s t : String) : Decidable (order.Less s t) :=
  inferInstanceAs (Decidable (order.canonical s < order.canonical t))

theorem le_of_prefix {front text : List Char} (h : front <+: text) : front ≤ text := by
  obtain ⟨rest, rfl⟩ := h
  rcases List.lex_nil_or_eq_nil (r := (· < ·)) rest with hlex | rfl
  · have hless := List.Lex.append_left (· < ·) hlex front
    rw [List.append_nil] at hless
    exact le_of_lt hless
  · rw [List.append_nil]

/-- Texts that are their own canonical forms, as those of ASCII are. -/
def literal : TextOrder String where
  canonical := id
  canonical_upToZero_le s := by
    rw [id, id, String.le_iff_toList_le, upToZero, String.toList_ofList]
    exact le_of_prefix (List.takeWhile_prefix _)

end TextOrder

/-- `Migration`. Setting it up changes the contents of the database, and returns or throws on the
way; which of the two may depend on circumstances. -/
structure Migration (σ : Type v) (ω : Type w) where
  id : String
  setUp : ω → σ → σ × Bool

/-- What a version of the app registers. -/
structure RegisteredMigrations {κ : Type u} [LinearOrder κ] (order : TextOrder κ) (σ : Type v)
    (ω : Type w) where
  migrations : List (Migration σ ω)
  ids_nodup : (migrations.map fun migration => order.canonical migration.id).Nodup

/-- The database: its contents and the table of recorded identifiers. The list of migrations that
were applied for good is not stored anywhere. -/
structure MigratedDatabase (σ : Type v) where
  contents : σ
  recorded : Table (fun id : String => id)
  applied : List String

namespace DBMigrationRepository

variable {κ : Type u} [LinearOrder κ] {order : TextOrder κ} {σ : Type v} {ω : Type w}

/-- `objectFromResultSet(_:)`. -/
def objectFromResultSet (id : String) : String := upToZero id

/-- The first row in the descending order of the database, which is that of the bytes. -/
def latestRow (db : MigratedDatabase σ) : Option String :=
  (db.recorded.rows.insertionSort (· ≥ ·)).head?

/-- `findLatest()`. -/
def findLatest (db : MigratedDatabase σ) : Option String :=
  (latestRow db).map objectFromResultSet

/-- `self.migrations.sorted { $0.id.id < $1.id.id }`. -/
def sorted (registered : RegisteredMigrations order σ ω) : List (Migration σ ω) :=
  registered.migrations.insertionSort fun first second => ¬ order.Less second.id first.id

/-- `pendingMigrations()`. -/
def pendingMigrations (registered : RegisteredMigrations order σ ω) (db : MigratedDatabase σ) :
    List (Migration σ ω) :=
  let migrations := sorted registered
  match (findLatest db).bind fun latestInDB =>
      migrations.findIdx? fun migration => order.Same migration.id latestInDB with
  | some index =>
    if index < migrations.length - 1 then migrations.drop (index + 1) else []
  | none => migrations

/-- `executeInTransaction(_:)`. A transaction that is not committed is rolled back, and the error is
thrown on: the result says whether the call returned. -/
def executeInTransaction (commits : Bool)
    (closure : MigratedDatabase σ → MigratedDatabase σ × Bool) (db : MigratedDatabase σ) :
    MigratedDatabase σ × Bool :=
  match closure db with
  | (changed, true) => if commits then (changed, true) else (db, false)
  | (_, false) => (db, false)

/-- `save(_:connection:)`. -/
def save (id : String) (db : MigratedDatabase σ) : MigratedDatabase σ :=
  { db with recorded := db.recorded.save id }

end DBMigrationRepository

namespace DBMigrationService

open DBMigrationRepository

variable {κ : Type u} [LinearOrder κ] {order : TextOrder κ} {σ : Type v} {ω : Type w}

/-- The loop of `migrate()`. -/
def setUpAll (world : ω) :
    List (Migration σ ω) → MigratedDatabase σ → MigratedDatabase σ × Bool
  | [], db => (db, true)
  | migration :: rest, db =>
    match migration.setUp world db.contents with
    | (contents, true) =>
      setUpAll world rest (save migration.id
        { db with contents := contents, applied := db.applied ++ [migration.id] })
    | (contents, false) => ({ db with contents := contents }, false)

/-- `migrate()`. -/
def migrate (registered : RegisteredMigrations order σ ω) (world : ω) (commits : Bool)
    (db : MigratedDatabase σ) : MigratedDatabase σ × Bool :=
  let pendingMigrations := pendingMigrations registered db
  if pendingMigrations = [] then (db, true)
  else executeInTransaction commits (setUpAll world pendingMigrations) db

/-- `skipMigrationsBeforeAndIncluding(_:)`. -/
def skipMigrationsBeforeAndIncluding (id : String) (commits : Bool) (db : MigratedDatabase σ) :
    MigratedDatabase σ × Bool :=
  executeInTransaction commits (fun db => (save id db, true)) db

end DBMigrationService

/-! ## What is pending -/

namespace DBMigrationRepository

variable {κ : Type u} [LinearOrder κ] {order : TextOrder κ} {σ : Type v} {ω : Type w}
  {registered : RegisteredMigrations order σ ω} {db : MigratedDatabase σ}

/-- The latest identifier is a recorded one, or what is left of it. -/
theorem findLatest_eq_some (order : TextOrder κ) {latest : String}
    (h : findLatest db = some latest) :
    ∃ row ∈ db.recorded.rows, order.canonical latest ≤ order.canonical row := by
  obtain ⟨row, hrow, rfl⟩ := Option.map_eq_some_iff.mp h
  refine ⟨row, (List.mem_insertionSort _).mp (List.mem_of_head? hrow), ?_⟩
  exact order.canonical_upToZero_le row

theorem findLatest_eq_none (h : findLatest db = none) : db.recorded.rows = [] := by
  rw [findLatest, Option.map_eq_none_iff, latestRow, List.head?_eq_none_iff] at h
  have hlength := List.length_insertionSort (· ≥ ·) db.recorded.rows
  rw [h] at hlength
  exact List.length_eq_zero_iff.mp hlength.symm

/-- The sorted migrations are strictly ascending, since no two have the same identifier. -/
theorem sorted_pairwise (registered : RegisteredMigrations order σ ω) :
    (sorted registered).Pairwise fun first second => order.Less first.id second.id := by
  have htotal : Std.Total fun first second : Migration σ ω => ¬ order.Less second.id first.id :=
    ⟨fun first second => by
      rcases le_total (order.canonical first.id) (order.canonical second.id) with h | h
      · exact .inl h.not_gt
      · exact .inr h.not_gt⟩
  have htrans : IsTrans (Migration σ ω) fun first second => ¬ order.Less second.id first.id :=
    ⟨fun _ _ _ h h' => ((not_lt.mp h).trans (not_lt.mp h')).not_gt⟩
  have hle := List.pairwise_insertionSort
    (fun first second : Migration σ ω => ¬ order.Less second.id first.id) registered.migrations
  have hnodup : ((sorted registered).map fun migration => order.canonical migration.id).Nodup :=
    ((List.perm_insertionSort _ _).map _).nodup_iff.mpr registered.ids_nodup
  have hne := List.pairwise_map.mp hnodup
  exact (hle.and hne).imp fun h => lt_of_le_of_ne (not_lt.mp h.1) h.2

theorem mem_sorted {migration : Migration σ ω} :
    migration ∈ sorted registered ↔ migration ∈ registered.migrations :=
  List.mem_insertionSort _

/-- An identifier is registered, up to its canonical form. -/
def IsRegistered (registered : RegisteredMigrations order σ ω) (id : String) : Prop :=
  ∃ migration ∈ registered.migrations, order.Same migration.id id

/-- The identifier that is found is registered and what is registered behind it is greater than
all that is recorded, or everything registered is greater than all that is recorded. -/
def Anchored (registered : RegisteredMigrations order σ ω) (db : MigratedDatabase σ) : Prop :=
  ∀ latest, findLatest db = some latest →
    (IsRegistered registered latest ∧
      ∀ id ∈ registered.migrations.map Migration.id, order.Less latest id →
        ∀ recorded ∈ db.recorded.rows, order.Less recorded id) ∨
    ∀ id ∈ registered.migrations.map Migration.id,
      ∀ recorded ∈ db.recorded.rows, order.Less recorded id

/-- What follows an element of a strictly ascending list is what is greater. -/
theorem drop_eq_filter {migrations : List (Migration σ ω)} {index : ℕ} {latest : String}
    (hsorted : migrations.Pairwise fun first second => order.Less first.id second.id)
    (hindex : (migrations.findIdx? fun migration => order.Same migration.id latest) =
      some index) :
    migrations.drop (index + 1) =
      migrations.filter fun migration => order.Less latest migration.id := by
  induction migrations generalizing index with
  | nil => simp at hindex
  | cons first rest ih =>
      obtain ⟨hfirst, hrest⟩ := List.pairwise_cons.mp hsorted
      rw [List.findIdx?_cons] at hindex
      by_cases heq : order.Same first.id latest
      · have hall : ∀ migration ∈ rest, order.Less latest migration.id := by
          intro migration hmem
          exact heq.symm.trans_lt (hfirst migration hmem)
        have hfirst : ¬ order.Less latest first.id := heq.le.not_gt
        simp [heq] at hindex
        rw [← hindex, List.filter_cons_of_neg (by simpa using hfirst), List.drop_one,
          List.tail_cons, List.filter_eq_self.mpr (by simpa using hall)]
      · simp [heq] at hindex
        obtain ⟨i, hi, rfl⟩ := hindex
        obtain ⟨migration, hmem, hid⟩ : ∃ migration ∈ rest, order.Same migration.id latest := by
          obtain ⟨hlt, hfound, -⟩ := List.findIdx?_eq_some_iff_getElem.mp hi
          exact ⟨rest[i], List.getElem_mem hlt, by simpa using hfound⟩
        have hless : ¬ order.Less latest first.id :=
          ((hfirst migration hmem).trans_eq hid).not_gt
        rw [List.filter_cons_of_neg (by simpa using hless), List.drop_succ_cons, ih hrest hi]

/-- The whole list is pending when nothing in it marks the place. -/
theorem pendingMigrations_of_missing
    (h : ∀ latest, findLatest db = some latest → ¬ IsRegistered registered latest) :
    pendingMigrations registered db = sorted registered := by
  have hnone : ((findLatest db).bind fun latestInDB =>
      (sorted registered).findIdx? fun migration => order.Same migration.id latestInDB) =
        none := by
    cases hlatest : findLatest db with
    | none => rfl
    | some latest =>
        simp only [Option.bind_some, List.findIdx?_eq_none_iff, decide_eq_false_iff_not]
        intro migration hmem heq
        exact h latest hlatest ⟨migration, mem_sorted.mp hmem, heq⟩
  rw [pendingMigrations, hnone]

/-- What is greater than the identifier that is found is pending when that is registered. -/
theorem pendingMigrations_of_mem {latest : String} (hlatest : findLatest db = some latest)
    (h : IsRegistered registered latest) :
    pendingMigrations registered db =
      (sorted registered).filter fun migration => order.Less latest migration.id := by
  obtain ⟨marked, hmarked, heq⟩ := h
  cases hindex : (sorted registered).findIdx? fun migration => order.Same migration.id latest with
  | none =>
      have hmissing := List.findIdx?_eq_none_iff.mp hindex marked (mem_sorted.mpr hmarked)
      simp [heq] at hmissing
  | some index =>
      rw [← drop_eq_filter (sorted_pairwise registered) hindex]
      simp only [pendingMigrations, hlatest, Option.bind_some, hindex]
      split
      · rfl
      · rename_i hlast
        exact (List.drop_of_length_le (by omega)).symm

theorem pendingMigrations_sublist (registered : RegisteredMigrations order σ ω)
    (db : MigratedDatabase σ) :
    (pendingMigrations registered db).Sublist (sorted registered) := by
  by_cases h : ∃ latest, findLatest db = some latest ∧ IsRegistered registered latest
  · obtain ⟨latest, hlatest, hmem⟩ := h
    rw [pendingMigrations_of_mem hlatest hmem]
    exact List.filter_sublist
  · rw [pendingMigrations_of_missing fun latest hlatest hmem => h ⟨latest, hlatest, hmem⟩]

/-- Pending migrations are in strictly ascending order. -/
theorem pending_pairwise (registered : RegisteredMigrations order σ ω)
    (db : MigratedDatabase σ) :
    ((pendingMigrations registered db).map Migration.id).Pairwise order.Less :=
  List.pairwise_map.mpr
    ((sorted_pairwise registered).sublist (pendingMigrations_sublist registered db))

theorem mem_sorted_ids {id : String} :
    id ∈ (sorted registered).map Migration.id ↔ id ∈ registered.migrations.map Migration.id := by
  simp only [List.mem_map, mem_sorted]

/-- The pending migrations are the registered ones that are greater than everything recorded
exactly when the identifier that is found is in its place. -/
theorem mem_pending_iff (registered : RegisteredMigrations order σ ω) (db : MigratedDatabase σ) :
    (∀ id, id ∈ (pendingMigrations registered db).map Migration.id ↔
      id ∈ registered.migrations.map Migration.id ∧
        ∀ recorded ∈ db.recorded.rows, order.Less recorded id) ↔
      Anchored registered db := by
  cases hlatest : findLatest db with
  | none =>
      have hempty := findLatest_eq_none hlatest
      have hall : pendingMigrations registered db = sorted registered :=
        pendingMigrations_of_missing (by simp [hlatest])
      simp [hall, hempty, Anchored, hlatest, mem_sorted]
  | some latest =>
      obtain ⟨row, hrow, hle⟩ := findLatest_eq_some order hlatest
      have hbelow : ∀ id, (∀ recorded ∈ db.recorded.rows, order.Less recorded id) →
          order.Less latest id := fun id h => hle.trans_lt (h row hrow)
      simp only [Anchored, hlatest, Option.some.injEq, forall_eq']
      by_cases hmem : IsRegistered registered latest
      · have hnot : ¬ ∀ id ∈ registered.migrations.map Migration.id,
            ∀ recorded ∈ db.recorded.rows, order.Less recorded id := by
          intro hall
          obtain ⟨migration, hmigration, hsame⟩ := hmem
          have hless := hbelow _ (hall migration.id (List.mem_map_of_mem hmigration))
          exact hless.ne hsame.symm
        have hpending : ∀ id, id ∈ (pendingMigrations registered db).map Migration.id ↔
            id ∈ registered.migrations.map Migration.id ∧ order.Less latest id := by
          intro id
          rw [pendingMigrations_of_mem hlatest hmem]
          simp only [List.mem_map, List.mem_filter, mem_sorted, decide_eq_true_eq]
          constructor
          · rintro ⟨migration, ⟨hregistered, hlt⟩, rfl⟩
            exact ⟨⟨migration, hregistered, rfl⟩, hlt⟩
          · rintro ⟨⟨migration, hregistered, rfl⟩, hlt⟩
            exact ⟨migration, ⟨hregistered, hlt⟩, rfl⟩
        rw [or_iff_left hnot, and_iff_right hmem]
        simp only [hpending]
        exact ⟨fun h id hid hlt => ((h id).mp ⟨hid, hlt⟩).2, fun h id =>
          ⟨fun hid => ⟨hid.1, h id hid.1 hid.2⟩, fun hid => ⟨hid.1, hbelow id hid.2⟩⟩⟩
      · have hmissing : ∀ other, findLatest db = some other →
            ¬ IsRegistered registered other := by
          intro other hother
          rw [hlatest] at hother
          cases hother
          exact hmem
        rw [pendingMigrations_of_missing hmissing, or_iff_right fun h => hmem h.1]
        simp only [mem_sorted_ids]
        exact ⟨fun h id hid => ((h id).mp hid).2, fun h id =>
          ⟨fun hid => ⟨hid, h id hid⟩, fun hid => hid.1⟩⟩

end DBMigrationRepository

/-! ## What is applied -/

namespace DBMigrationService

open DBMigrationRepository

variable {κ : Type u} [LinearOrder κ] {order : TextOrder κ} {σ : Type v} {ω : Type w}
  {registered : RegisteredMigrations order σ ω} {db : MigratedDatabase σ} {world : ω}
  {commits : Bool}

/-- A loop that returns has applied and recorded every migration. -/
theorem setUpAll_spec {migrations : List (Migration σ ω)} {db' : MigratedDatabase σ}
    (h : setUpAll world migrations db = (db', true)) :
    db'.applied = db.applied ++ migrations.map Migration.id ∧
      ∀ id, id ∈ db'.recorded.rows ↔
        id ∈ db.recorded.rows ∨ id ∈ migrations.map Migration.id := by
  induction migrations generalizing db with
  | nil =>
      cases h
      simp
  | cons migration rest ih =>
      rw [setUpAll] at h
      split at h
      · obtain ⟨happlied, hrecorded⟩ := ih h
        refine ⟨by simpa [save] using happlied, fun id => ?_⟩
        rw [hrecorded, save, Table.mem_rows_save, List.map_cons, List.mem_cons]
        by_cases heq : id = migration.id
        · simp [heq]
        · simp [heq]
      · cases h

/-- `migrate()` applies and records what is pending, or leaves everything as it was. -/
theorem migrate_spec (registered : RegisteredMigrations order σ ω) (world : ω) (commits : Bool)
    (db : MigratedDatabase σ) :
    ((migrate registered world commits db).2 = true ∧
      (migrate registered world commits db).1.applied =
        db.applied ++ (pendingMigrations registered db).map Migration.id ∧
      ∀ id, id ∈ (migrate registered world commits db).1.recorded.rows ↔
        id ∈ db.recorded.rows ∨ id ∈ (pendingMigrations registered db).map Migration.id) ∨
    migrate registered world commits db = (db, false) := by
  by_cases hempty : pendingMigrations registered db = []
  · left
    simp [migrate, hempty]
  · simp only [migrate, if_neg hempty, executeInTransaction]
    cases hall : setUpAll world (pendingMigrations registered db) db with
    | mk changed returned =>
        cases returned with
        | false => exact .inr rfl
        | true =>
            cases commits with
            | false => exact .inr rfl
            | true => exact .inl ⟨rfl, setUpAll_spec hall⟩

/-- What one call of `migrate()` should do: apply the registered migrations that are greater than
everything recorded, in ascending order, or throw and change nothing. -/
structure AppliesPending (registered : RegisteredMigrations order σ ω) (db : MigratedDatabase σ)
    (result : MigratedDatabase σ × Bool) : Prop where
  returned : result.2 = true → ∃ new, result.1.applied = db.applied ++ new ∧
    new.Pairwise order.Less ∧ ∀ id, id ∈ new ↔
      id ∈ registered.migrations.map Migration.id ∧
        ∀ recorded ∈ db.recorded.rows, order.Less recorded id
  threw : result.2 = false → result.1 = db

/-- It does so exactly when the identifier that is found is in its place, or when it throws. -/
theorem appliesPending_iff (registered : RegisteredMigrations order σ ω) (world : ω)
    (commits : Bool) (db : MigratedDatabase σ) :
    AppliesPending registered db (migrate registered world commits db) ↔
      Anchored registered db ∨ (migrate registered world commits db).2 = false := by
  obtain ⟨hreturned, happlied, -⟩ | hthrew := migrate_spec registered world commits db
  · rw [← mem_pending_iff]
    simp only [hreturned, Bool.true_eq_false, or_false]
    constructor
    · intro h
      obtain ⟨new, hnew, -, hmem⟩ := h.returned hreturned
      rw [happlied] at hnew
      rwa [← List.append_cancel_left hnew] at hmem
    · intro h
      refine ⟨fun _ => ⟨_, happlied, pending_pairwise registered db, h⟩, fun hthrew => ?_⟩
      rw [hreturned] at hthrew
      cases hthrew
  · rw [hthrew]
    simp only [or_true, iff_true]
    refine ⟨fun h => ?_, fun _ => rfl⟩
    cases h

/-- A call of the service. -/
inductive Call (order : TextOrder κ) (σ : Type v) (ω : Type w)
  | migrate (registered : RegisteredMigrations order σ ω) (world : ω) (commits : Bool)
  | skipMigrationsBeforeAndIncluding (id : String) (commits : Bool)

/-- The database after a call. -/
def Call.perform (db : MigratedDatabase σ) : Call order σ ω → MigratedDatabase σ
  | .migrate registered world commits => (DBMigrationService.migrate registered world commits db).1
  | .skipMigrationsBeforeAndIncluding id commits =>
    (DBMigrationService.skipMigrationsBeforeAndIncluding id commits db).1

/-- Migrations are asked for while the identifier that is found is in its place. -/
def Call.Anchored (db : MigratedDatabase σ) : Call order σ ω → Prop
  | .migrate registered _ _ => DBMigrationRepository.Anchored registered db
  | .skipMigrationsBeforeAndIncluding _ _ => True

/-- Applied migrations are recorded, and none is applied twice. -/
structure Once (order : TextOrder κ) (db : MigratedDatabase σ) : Prop where
  nodup : (db.applied.map order.canonical).Nodup
  recorded : ∀ id ∈ db.applied, id ∈ db.recorded.rows

theorem Once.perform (h : Once order db) {call : Call order σ ω} (hcall : call.Anchored db) :
    Once order (call.perform db) := by
  cases call with
  | migrate registered world commits =>
      obtain ⟨-, happlied, hrecorded⟩ | hthrew := migrate_spec registered world commits db
      · have hpending := (mem_pending_iff registered db).mpr hcall
        rw [Call.perform]
        constructor
        · rw [happlied, List.map_append, List.nodup_append]
          refine ⟨h.nodup, List.pairwise_map.mpr
            ((pending_pairwise registered db).imp fun hlt => hlt.ne), ?_⟩
          intro key hkey other hother
          obtain ⟨id, hid, rfl⟩ := List.mem_map.mp hkey
          obtain ⟨new, hnew, rfl⟩ := List.mem_map.mp hother
          exact (((hpending new).mp hnew).2 id (h.recorded id hid)).ne
        · intro id hid
          rw [happlied, List.mem_append] at hid
          exact (hrecorded id).mpr (hid.imp (h.recorded id) fun hnew => hnew)
      · rw [Call.perform, hthrew]
        exact h
  | skipMigrationsBeforeAndIncluding id commits =>
      cases commits with
      | false => exact h
      | true =>
          refine ⟨h.nodup, fun other hother => ?_⟩
          by_cases heq : other = id
          · exact Table.mem_rows_save.mpr (.inl heq)
          · exact Table.mem_rows_save.mpr (.inr ⟨h.recorded other hother, heq⟩)

/-- One call, made while the identifier that is found is in its place. -/
def Step (order : TextOrder κ) (ω : Type w) (db db' : MigratedDatabase σ) : Prop :=
  ∃ call : Call order σ ω, call.Anchored db ∧ db' = call.perform db

/-- In runs in which migrations are asked for only while the identifier that is found marks the
place of all that is recorded, or everything registered is greater, no migration is applied
twice, and every call of `migrate()` does what it should exactly if that is so or if it throws. -/
theorem migrations_once {initial db : MigratedDatabase σ} (hinitial : initial.applied = [])
    (hrun : Relation.ReflTransGen (Step order ω) initial db) :
    (db.applied.map order.canonical).Nodup ∧
    ∀ (registered : RegisteredMigrations order σ ω) (world : ω) (commits : Bool),
      AppliesPending registered db (migrate registered world commits db) ↔
        Anchored registered db ∨ (migrate registered world commits db).2 = false := by
  have honce : Once order db := by
    induction hrun with
    | refl => exact ⟨by simp [hinitial], by simp [hinitial]⟩
    | tail _ hstep ih =>
        obtain ⟨call, hcall, rfl⟩ := hstep
        exact ih.perform hcall
  exact ⟨honce.nodup, fun registered world commits =>
    appliesPending_iff registered world commits db⟩

/-- The database of a new installation. -/
def emptyDatabase : MigratedDatabase Unit := ⟨(), Table.empty, []⟩

/-- A migration that does nothing and returns. -/
def trivialMigration (id : String) : Migration Unit Unit :=
  ⟨id, fun _ contents => (contents, true)⟩

/-- The migrations of two versions, the second of which has dropped one. -/
def firstVersion : RegisteredMigrations .literal Unit Unit :=
  ⟨[trivialMigration "0002", trivialMigration "0001"], by decide⟩

def secondVersion : RegisteredMigrations .literal Unit Unit :=
  ⟨[trivialMigration "0001", trivialMigration "0003"], by decide⟩

/-- The first version applies its migrations once and in order. -/
theorem migrations_once_firstVersion :
    (migrate firstVersion () true emptyDatabase).1.applied = ["0001", "0002"] ∧
      ((migrate firstVersion () true emptyDatabase).1.applied.map TextOrder.literal.canonical).Nodup := by
  refine ⟨by decide +kernel, ?_⟩
  have hanchored : Anchored firstVersion emptyDatabase := by
    intro latest hlatest
    cases hlatest
  have hstep : Step TextOrder.literal Unit emptyDatabase (migrate firstVersion () true emptyDatabase).1 :=
    ⟨.migrate firstVersion () true, hanchored, rfl⟩
  exact (migrations_once rfl (.single hstep)).1

/-- After an update that dropped the last migration, the one before it is applied again. -/
theorem secondVersion_repeats :
    let db := (migrate firstVersion () true emptyDatabase).1
    (migrate secondVersion () true db).1.applied = ["0001", "0002", "0001", "0003"] ∧
      ¬ ((migrate secondVersion () true db).1.applied.map TextOrder.literal.canonical).Nodup := by
  decide +kernel

end DBMigrationService

end SafeWallet
