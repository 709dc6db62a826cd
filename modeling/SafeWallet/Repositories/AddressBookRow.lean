/-
# The address book in the database

An entry of type wallet is saved only if no other entry of this type has its address,
which is looked for without regard to the case of letters. The first of the entries that
are found, in the order of their names, decides. There is never a second one: the table
of the address book has at most one entry of type wallet for an address, whatever is
saved and removed, and every call does what the address book in memory does.
-/

import SafeWallet.Database.Repository
import SafeWallet.Wallet.AddressBook

namespace SafeWallet

/-- `AddressBookEntryType.rawValue`. -/
def AddressBookEntryType.rawValue : AddressBookEntryType → ℤ
  | .regular => 0
  | .wallet => 1

/-- `AddressBookEntryType(rawValue:)`. -/
def AddressBookEntryType.ofRawValue (rawValue : ℤ) : Option AddressBookEntryType :=
  [.regular, .wallet].find? fun type => type.rawValue = rawValue

namespace DBAddressBookRepository

/-! ## The repository -/

/-- `insertionBindings(_:)`. -/
def insertionBindings (object : AddressBookEntry) : List SQLBindable :=
  [.string object.id, .string object.name, .string object.address, .int object.type.rawValue]

/-- `objectFromResultSet(_:)`. -/
def objectFromResultSet (casts : SqlCasts) (rs : ResultSet) : Option AddressBookEntry := do
  let id ← rs.string casts "id"
  let name ← rs.string casts "name"
  let address ← rs.string casts "address"
  let type ← rs.int casts "type"
  let entryType ← AddressBookEntryType.ofRawValue type
  return ⟨id, name, address, entryType⟩

theorem keyed : (column "id" .text .key).KeyedBy table.fields :=
  ⟨by decide, by decide, rfl, by decide, by decide, by decide⟩

/-- What the address book inherits. -/
def repository : DBRepository AddressBookEntry String where
  table
  id := AddressBookEntry.id
  insertionBindings
  objectFromResultSet
  primaryKeyBinding := .string
  key := column "id" .text .key
  keyed
  bindings_length _ := rfl
  bindings_key _ := rfl
  key_ne_null := SQLBindable.set_string_ne_null
  key_stored := SQLBindable.coerce_set_string
  key_injective := SQLBindable.set_string_injective

variable {numbers : SqlNumbers} (casts : SqlCasts)

/-- `find(address:types:)`. -/
def find (address : String) (types : List AddressBookEntryType) (db : SqlDatabase numbers) :
    Trapping (List AddressBookEntry) := do
  let found ← repository.findAll casts "address" (.string address) false (some "name") db
  return found.filter fun entry => entry.type ∈ types

/-- `save(_:)`. -/
def save (item : AddressBookEntry) (db : SqlDatabase numbers) :
    Trapping (SqlDatabase numbers) := do
  if item.type = .wallet then
    let existing ← find casts item.address [.wallet] db
    if existing.head?.any fun existing => existing.id ≠ item.id then return db
    else repository.save item db
  else repository.save item db

/-- The calls that change the address book. -/
inductive Change
  | save (item : AddressBookEntry)
  | remove (item : AddressBookEntry)

/-- Changes one after the other. -/
def run : List Change → SqlDatabase numbers → Trapping (SqlDatabase numbers)
  | [], db => return db
  | .save item :: rest, db => do run rest (← save casts item db)
  | .remove item :: rest, db => do run rest (← repository.remove item db)

/-! ## Entries that are found -/

/-- The texts of an entry are without zeros. -/
structure Plain (entry : AddressBookEntry) : Prop where
  id : '\x00' ∉ entry.id.toList
  name : '\x00' ∉ entry.name.toList
  address : '\x00' ∉ entry.address.toList

variable {casts} {entry item : AddressBookEntry} {db : SqlDatabase numbers} {store : Store}

theorem storable (entry : AddressBookEntry) : repository.Storable entry :=
  .cons (fun _ => SqlValue.noConfusion) <| .cons (fun _ => SqlValue.noConfusion) <|
    .cons (fun _ => SqlValue.noConfusion) <| .cons (fun _ => SqlValue.noConfusion) .nil

/-- An entry is read unchanged. -/
theorem loaded_eq_some (h : Plain entry) : repository.loaded casts numbers entry = some entry := by
  have hid := @ResultSet.string_eq_some casts ⟨table.fieldNames, repository.row numbers entry⟩
    "id" entry.id rfl h.id
  have hname := @ResultSet.string_eq_some casts ⟨table.fieldNames, repository.row numbers entry⟩
    "name" entry.name rfl h.name
  have haddress := @ResultSet.string_eq_some casts
    ⟨table.fieldNames, repository.row numbers entry⟩ "address" entry.address rfl h.address
  have htype : ResultSet.int casts ⟨table.fieldNames, repository.row numbers entry⟩ "type" =
      some entry.type.rawValue := rfl
  have hback : AddressBookEntryType.ofRawValue entry.type.rawValue = some entry.type := by
    cases entry.type <;> rfl
  change objectFromResultSet casts ⟨table.fieldNames, repository.row numbers entry⟩ = _
  rw [objectFromResultSet, hid, hname, haddress, htype]
  simp only [Option.bind_eq_bind, Option.bind_some, hback]
  rfl

/-- Two texts are the same without regard to case if they are with a zero at the end. -/
theorem toLower_set_eq_iff {s s' : String} :
    (SQLBindable.set (.string s)).toLower = (SQLBindable.set (.string s')).toLower ↔
      s.toLower = s'.toLower := by
  have hset : ∀ s : String, (SQLBindable.set (.string s)).toLower =
      .text (String.ofList (s.toLower.toList ++ ['\x00'])) := by
    intro s
    have hlower : ∀ s : String, s.toLower = s.map Char.toLower := fun _ => rfl
    simp only [SQLBindable.set, SqlValue.toLower, SqlValue.text.injEq, hlower]
    rw [← String.toList_inj]
    simp
  rw [hset, hset, SqlValue.text.injEq, String.ofList_inj, List.append_cancel_right_eq,
    String.toList_inj]

/-- The rows that match an address are those of the entries with this address. -/
theorem filter_equalsNoCase {items : Table AddressBookEntry.id} {stored : SqlTable numbers}
    (hcolumns : stored.columns = table.fields)
    (hrows : stored.rows = items.rows.map (repository.row numbers)) (address : String) :
    (stored.rows.filter fun row =>
      stored.equalsNoCase "address" (SQLBindable.set (.string address)) row) =
      (items.rows.filter fun entry => decide (entry.address.toLower = address.toLower)).map
        (repository.row numbers) := by
  rw [hrows, List.filter_map]
  refine congrArg _ (List.filter_congr fun entry _ => ?_)
  have hfind : (stored.columns.find? fun column => column.name = "address") =
      some (column "address" .text .notNull) := by
    rw [hcolumns]
    rfl
  have hcell : stored.cell "address" (repository.row numbers entry) =
      some (SQLBindable.set (.string entry.address)) := by
    rw [SqlTable.cell, hcolumns]
    rfl
  have hstored : numbers.coerce (column "address" .text .notNull).type
      (SQLBindable.set (.string address)) = SQLBindable.set (.string address) := rfl
  rw [Function.comp_apply, SqlTable.equalsNoCase, hfind]
  simp only [hcell, hstored, Option.map_some, Option.some_inj, toLower_set_eq_iff]
  simp [SQLBindable.set]

/-- No two entries of type wallet have one address. -/
def OnePerAddress (items : Table AddressBookEntry.id) : Prop :=
  ∀ entry ∈ items.rows, ∀ other ∈ items.rows, entry.type = .wallet → other.type = .wallet →
    entry.address.toLower = other.address.toLower → entry = other

/-- The database has the address book of the store. All its entries are read unchanged, and
no two of type wallet have one address. -/
structure Kept (db : SqlDatabase numbers) (store : Store) : Prop where
  holds : repository.Holds db store.addressBook
  plain : ∀ entry ∈ store.addressBook.rows, Plain entry
  distinct : OnePerAddress store.addressBook

/-- The entries of an address are found, in some order. -/
theorem find_eq (h : Kept db store) (address : String) :
    ∃ found, find casts address [.wallet] db = .ok found ∧
      found.Perm (store.walletEntries ⟨address⟩) := by
  let entries := store.addressBook.rows.filter fun entry =>
    decide (entry.address.toLower = address.toLower)
  let name := fun entry => (SqlColumn.cell table.fields "name"
    (repository.row numbers entry)).getD .null
  let sorted := entries.mergeSort fun entry other => (name entry).le casts.numberLE (name other)
  have hmem : ∀ entry ∈ sorted, entry ∈ store.addressBook.rows := fun entry hentry =>
    List.mem_of_mem_filter (List.mem_mergeSort.mp hentry)
  have hfindAll : repository.findAll casts "address" (.string address) false (some "name") db =
      .ok (sorted.filterMap (repository.loaded casts numbers)) := by
    refine DBRepository.query_eq h.holds (fun stored hcolumns hrows => ?_) hmem
    have hfilter := filter_equalsNoCase hcolumns hrows address
    simp only [Bool.false_eq_true, if_false, hfilter, SqlTable.ordered]
    refine (List.map_mergeSort fun entry _ other _ => ?_).symm
    simp only [SqlTable.cell, hcolumns]
    rfl
  have hloaded : sorted.filterMap (repository.loaded casts numbers) = sorted := by
    rw [List.filterMap_congr fun entry hentry => loaded_eq_some (h.plain entry (hmem entry hentry)),
      List.filterMap_some]
  refine ⟨sorted.filter fun entry => entry.type ∈ [AddressBookEntryType.wallet], ?_, ?_⟩
  · rw [find, hfindAll, hloaded]
    rfl
  · refine ((List.mergeSort_perm entries _).filter _).trans (List.Perm.of_eq ?_)
    rw [List.filter_filter, Store.walletEntries]
    refine List.filter_congr fun entry _ => ?_
    rw [← Bool.decide_and, decide_eq_decide, List.mem_singleton, and_comm]

/-- The entry that decides is the only one. -/
theorem head?_eq_of_perm (h : Kept db store) {found : List AddressBookEntry} {address : String}
    (hperm : found.Perm (store.walletEntries ⟨address⟩)) :
    found.head? = (store.walletEntries ⟨address⟩).head? := by
  cases hentries : store.walletEntries ⟨address⟩ with
  | nil =>
      rw [hentries] at hperm
      rw [List.perm_nil.mp hperm]
  | cons first rest =>
      cases hfound : found with
      | nil =>
          rw [hfound] at hperm
          rw [List.nil_perm.mp hperm] at hentries
          cases hentries
      | cons other others =>
          have hfirst := Store.mem_walletEntries.mp (hentries ▸ List.mem_cons_self)
          have hother := Store.mem_walletEntries.mp
            (hperm.mem_iff.mp (hfound ▸ List.mem_cons_self))
          have heq : other = first := h.distinct other hother.1 first hfirst.1 hother.2.2
            hfirst.2.2 (hother.2.1.trans hfirst.2.1.symm)
          rw [List.head?_cons, List.head?_cons, heq]

/-! ## Changes -/

/-- An entry that may be saved. -/
theorem Kept.saved (h : Kept db store) (hplain : Plain item)
    (hfree : item.type = .wallet → ∀ other ∈ store.addressBook.rows, other.type = .wallet →
      other.address.toLower = item.address.toLower → other.id = item.id) :
    ∃ db', repository.save item db = .ok db' ∧
      Kept db' { store with addressBook := store.addressBook.save item } := by
  obtain ⟨db', hsave, hholds, -⟩ := DBRepository.save_eq h.holds (storable item)
  refine ⟨db', hsave, hholds, fun entry hentry => ?_, fun entry hentry other hother => ?_⟩
  · rcases Table.mem_rows_save.mp hentry with rfl | ⟨hold, -⟩
    · exact hplain
    · exact h.plain entry hold
  · intro hwallet hwallet' hsame
    rcases Table.mem_rows_save.mp hentry with rfl | ⟨hold, hne⟩ <;>
      rcases Table.mem_rows_save.mp hother with rfl | ⟨hold', hne'⟩
    · rfl
    · exact absurd (hfree hwallet other hold' hwallet' hsame.symm) hne'
    · exact absurd (hfree hwallet' entry hold hwallet hsame) hne
    · exact h.distinct entry hold other hold' hwallet hwallet' hsame

/-- `save(_:)` on the database is `save(_:)` in memory. -/
theorem save_eq (h : Kept db store) (hplain : Plain item) :
    ∃ db', save casts item db = .ok db' ∧ Kept db' (store.saveEntry item) := by
  by_cases hwallet : item.type = .wallet
  · obtain ⟨found, hfind, hperm⟩ := @find_eq _ casts _ _ h item.address
    have hhead := head?_eq_of_perm h hperm
    have hsave : save casts item db =
        if found.head?.any fun existing => existing.id ≠ item.id then .ok db
        else repository.save item db := by
      rw [save, if_pos hwallet, hfind]
      rfl
    rw [hsave, hhead, Store.saveEntry]
    cases hdecides : (store.walletEntries ⟨item.address⟩).head?.any fun existing =>
        existing.id ≠ item.id with
    | true =>
        simp only [hwallet, if_true, and_self]
        exact ⟨db, rfl, h⟩
    | false =>
        simp only [hwallet, Bool.false_eq_true, if_false, and_false]
        refine h.saved hplain fun _ other hmem hother hsame => ?_
        have hentry : other ∈ store.walletEntries ⟨item.address⟩ :=
          Store.mem_walletEntries.mpr ⟨hmem, hsame, hother⟩
        cases hentries : store.walletEntries ⟨item.address⟩ with
        | nil =>
            rw [hentries] at hentry
            cases hentry
        | cons first rest =>
            have hfirst := Store.mem_walletEntries.mp (hentries ▸ List.mem_cons_self)
            have heq : other = first := h.distinct other hmem first hfirst.1 hother hfirst.2.2
              (hsame.trans hfirst.2.1.symm)
            rw [hentries] at hdecides
            simpa [heq] using hdecides
  · have hsave : save casts item db = repository.save item db := by
      rw [save, if_neg hwallet]
    rw [hsave, Store.saveEntry, if_neg fun hcondition => hwallet hcondition.1]
    exact h.saved hplain fun htype => absurd htype hwallet

theorem remove_eq (h : Kept db store) (item : AddressBookEntry) :
    ∃ db', repository.remove item db = .ok db' ∧
      Kept db' { store with addressBook := store.addressBook.remove item.id } := by
  obtain ⟨db', hremove, hholds, -⟩ := @DBRepository.remove_eq _ _ _ _ item _ _ _ h.holds
  have hold : ∀ entry ∈ (store.addressBook.remove item.id).rows,
      entry ∈ store.addressBook.rows := fun entry hentry => (Table.mem_rows_remove.mp hentry).1
  exact ⟨db', hremove, hholds, fun entry hentry => h.plain entry (hold entry hentry),
    fun entry hentry other hother => h.distinct entry (hold entry hentry) other (hold other hother)⟩

/-- A change of the address book in memory. -/
def Change.inMemory (store : Store) : Change → Store
  | .save item => store.saveEntry item
  | .remove item => { store with addressBook := store.addressBook.remove item.id }

/-- A table that is there is kept, and a new one is as empty as the address book. -/
theorem setUp_kept
    (h : db table.tableName = none ∧ store.addressBook = .empty ∨ Kept db store) :
    ∃ created, repository.setUp db = .ok created ∧ Kept created store := by
  rcases h with ⟨hmissing, hempty⟩ | h
  · obtain ⟨created, hsetUp, hholds, -⟩ :=
      @DBRepository.setUp_of_missing _ _ _ repository db hmissing
    refine ⟨created, hsetUp, ?_, ?_, ?_⟩
    · rw [hempty]
      exact hholds
    · rw [hempty]
      exact fun _ hmem => (List.not_mem_nil hmem).elim
    · rw [hempty]
      exact fun _ hmem => (List.not_mem_nil hmem).elim
  · exact ⟨db, DBRepository.setUp_of_holds h.holds, h⟩

/-- One change after the other is made to both. -/
theorem run_kept {changes : List Change} (h : Kept db store)
    (hplain : ∀ item, Change.save item ∈ changes → Plain item) :
    ∃ db', run casts changes db = .ok db' ∧
      Kept db' (changes.foldl Change.inMemory store) := by
  induction changes generalizing db store with
  | nil => exact ⟨db, rfl, h⟩
  | cons change rest ih =>
      have hrest : ∀ item, Change.save item ∈ rest → Plain item :=
        fun item hmem => hplain item (List.mem_cons_of_mem _ hmem)
      cases change with
      | save item =>
          obtain ⟨db', hsave, hkept⟩ := @save_eq _ casts _ _ _ h (hplain item List.mem_cons_self)
          obtain ⟨db'', hrun, hkept'⟩ := ih hkept hrest
          exact ⟨db'', by rw [run, hsave]; exact hrun, hkept'⟩
      | remove item =>
          obtain ⟨db', hremove, hkept⟩ := remove_eq h item
          obtain ⟨db'', hrun, hkept'⟩ := ih hkept hrest
          exact ⟨db'', by rw [run, hremove]; exact hrun, hkept'⟩

/-- The address book in the database is changed like the one in memory, and it never has two
entries of type wallet for an address. -/
theorem kept_of_run {changes : List Change}
    (h : db table.tableName = none ∧ store.addressBook = .empty ∨ Kept db store)
    (hplain : ∀ item, Change.save item ∈ changes → Plain item) :
    ∃ created db', repository.setUp db = .ok created ∧ run casts changes created = .ok db' ∧
      Kept db' (changes.foldl Change.inMemory store) := by
  obtain ⟨created, hsetUp, hkept⟩ := setUp_kept h
  obtain ⟨db', hrun, hkept'⟩ := @run_kept _ casts _ _ _ hkept hplain
  exact ⟨created, db', hsetUp, hrun, hkept'⟩

section Example

open DBMigrationRepository (noNumbers noCasts)

/-- An entry of a wallet. -/
def walletEntry : AddressBookEntry := ⟨"1", "Safe", "0xAB", .wallet⟩

/-- The same address in small letters, under another identifier. -/
def otherEntry : AddressBookEntry := ⟨"2", "Other Safe", "0xab", .wallet⟩

/-- The second entry is not saved. -/
theorem kept_of_run_twice : ∃ created db', repository.setUp (fun _ => none) = .ok created ∧
    run noCasts [.save walletEntry, .save otherEntry] created = .ok db' ∧
    @Kept noNumbers db' ([.save walletEntry, .save otherEntry].foldl Change.inMemory
      WalletDomainService.emptyStore) :=
  @kept_of_run _ noCasts (fun _ => none) WalletDomainService.emptyStore _ (.inl ⟨rfl, rfl⟩)
      fun item hmem => by
    rcases List.mem_cons.mp hmem with h | h
    · cases h
      exact ⟨by decide, by decide, by decide⟩
    · cases List.mem_singleton.mp h
      exact ⟨by decide, by decide, by decide⟩

end Example

end DBAddressBookRepository

end SafeWallet
