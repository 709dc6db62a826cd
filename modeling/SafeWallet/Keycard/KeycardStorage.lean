/-
# The storage of the keycard service

The pairings and the keys lie in two tables of one database. As long as every object that
is saved is read unchanged, the database answers the program like the two tables of the
protocol, whatever the card does and wherever the program is cut off.
-/

import SafeWallet.Database.Repository
import SafeWallet.Keycard.KeycardProtocol

namespace SafeWallet

/-! ## Pairings -/

namespace DBKeycardPairingRepository

/-- `table`. -/
def table : TableSchema where
  tableName := "tbl_keycard_pairings"
  fields := [
    column "instance_uid" .blob .key,
    column "pairing_index" .integer .notNull,
    column "pairing_key" .blob .notNull]

/-- `insertionBindings(_:)`. -/
def insertionBindings (object : KeycardPairing) : List SQLBindable :=
  [.data object.instanceUID, .int object.index, .data object.key]

/-- `objectFromResultSet(_:)`. -/
def objectFromResultSet (casts : SqlCasts) (rs : ResultSet) : Option KeycardPairing := do
  let instanceUID ← rs.data casts "instance_uid"
  let index ← rs.int casts "pairing_index"
  let key ← rs.data casts "pairing_key"
  return ⟨instanceUID, index, key⟩

/-- `DBKeycardPairingRepository`. -/
def repository : DBRepository KeycardPairing Data where
  table
  id := KeycardPairing.instanceUID
  insertionBindings
  objectFromResultSet
  primaryKeyBinding := .data
  key := column "instance_uid" .blob .key
  keyed := ⟨by decide, by decide, rfl, by decide, by decide, by decide⟩
  bindings_length _ := rfl
  bindings_key _ := rfl
  key_ne_null _ := SqlValue.noConfusion
  key_stored _ _ := rfl
  key_injective _ _ h := SqlValue.blob.inj h

/-- The blobs of a pairing have bytes. -/
def Plain (object : KeycardPairing) : Prop := object.instanceUID ≠ [] ∧ object.key ≠ []

theorem storable (object : KeycardPairing) : repository.Storable object :=
  .cons (fun _ => SqlValue.noConfusion) <| .cons (fun _ => SqlValue.noConfusion) <|
    .cons (fun _ => SqlValue.noConfusion) .nil

/-- A pairing is read unchanged. -/
theorem loaded_eq_some_iff {numbers : SqlNumbers} {casts : SqlCasts} {pairing : KeycardPairing} :
    repository.loaded casts numbers pairing = some pairing ↔ Plain pairing := by
  have huid := @ResultSet.data_eq casts ⟨table.fieldNames, repository.row numbers pairing⟩
    "instance_uid" pairing.instanceUID rfl
  have hkey := @ResultSet.data_eq casts ⟨table.fieldNames, repository.row numbers pairing⟩
    "pairing_key" pairing.key rfl
  have hindex : ResultSet.int casts ⟨table.fieldNames, repository.row numbers pairing⟩
    "pairing_index" = some pairing.index := rfl
  rw [DBRepository.loaded]
  change objectFromResultSet casts ⟨table.fieldNames, repository.row numbers pairing⟩ = _ ↔ _
  rw [objectFromResultSet, huid, hkey, hindex]
  by_cases hempty : pairing.instanceUID = [] <;> by_cases hempty' : pairing.key = [] <;>
    simp [Plain, hempty, hempty']

end DBKeycardPairingRepository

/-! ## Keys -/

namespace DBKeycardKeyRepository

/-- `table`. -/
def table : TableSchema where
  tableName := "tbl_keycard_keys"
  fields := [
    column "address" .text .key,
    column "instance_uid" .blob .notNull,
    column "master_key_uid" .blob .notNull,
    column "keypath" .text .notNull,
    column "public_key" .blob .notNull]

/-- `insertionBindings(_:)`. -/
def insertionBindings (object : KeycardKey) : List SQLBindable :=
  [.string object.address.value, .data object.instanceUID, .data object.masterKeyUID,
    .string object.keyPath, .data object.publicKey]

/-- `objectFromResultSet(_:)`. -/
def objectFromResultSet (casts : SqlCasts) (rs : ResultSet) : Option KeycardKey := do
  let instanceUID ← rs.data casts "instance_uid"
  let masterKeyUID ← rs.data casts "master_key_uid"
  let keypath ← rs.string casts "keypath"
  let publicKey ← rs.data casts "public_key"
  let address ← rs.string casts "address"
  return ⟨⟨address⟩, instanceUID, masterKeyUID, keypath, publicKey⟩

/-- `DBKeycardKeyRepository`. -/
def repository : DBRepository KeycardKey Address where
  table
  id := KeycardKey.address
  insertionBindings
  objectFromResultSet
  primaryKeyBinding address := .string address.value
  key := column "address" .text .key
  keyed := ⟨by decide, by decide, rfl, by decide, by decide, by decide⟩
  bindings_length _ := rfl
  bindings_key _ := rfl
  key_ne_null _ := SqlValue.noConfusion
  key_stored _ _ := rfl
  key_injective _ _ h := congrArg Address.mk (SQLBindable.set_string_injective h)

/-- The texts of a key are without zeros and its blobs have bytes. -/
structure Plain (object : KeycardKey) : Prop where
  address : '\x00' ∉ object.address.value.toList
  keyPath : '\x00' ∉ object.keyPath.toList
  instanceUID : object.instanceUID ≠ []
  masterKeyUID : object.masterKeyUID ≠ []
  publicKey : object.publicKey ≠ []

theorem storable (object : KeycardKey) : repository.Storable object :=
  .cons (fun _ => SqlValue.noConfusion) <| .cons (fun _ => SqlValue.noConfusion) <|
    .cons (fun _ => SqlValue.noConfusion) <| .cons (fun _ => SqlValue.noConfusion) <|
      .cons (fun _ => SqlValue.noConfusion) .nil

/-- A key is read unchanged. -/
theorem loaded_eq_some {numbers : SqlNumbers} {casts : SqlCasts} {key : KeycardKey}
    (h : Plain key) : repository.loaded casts numbers key = some key := by
  have huid := @ResultSet.data_eq casts ⟨table.fieldNames, repository.row numbers key⟩
    "instance_uid" key.instanceUID rfl
  have hmaster := @ResultSet.data_eq casts ⟨table.fieldNames, repository.row numbers key⟩
    "master_key_uid" key.masterKeyUID rfl
  have hpublic := @ResultSet.data_eq casts ⟨table.fieldNames, repository.row numbers key⟩
    "public_key" key.publicKey rfl
  have hpath := @ResultSet.string_eq_some casts ⟨table.fieldNames, repository.row numbers key⟩
    "keypath" key.keyPath rfl h.keyPath
  have haddress := @ResultSet.string_eq_some casts ⟨table.fieldNames, repository.row numbers key⟩
    "address" key.address.value rfl h.address
  change objectFromResultSet casts ⟨table.fieldNames, repository.row numbers key⟩ = _
  rw [objectFromResultSet, huid, hmaster, hpublic, hpath, haddress, if_neg h.instanceUID,
    if_neg h.masterKeyUID, if_neg h.publicKey]
  rfl

end DBKeycardKeyRepository

/-! ## The repository of the keycard protocol -/

namespace DBKeycardRepository

variable {numbers : SqlNumbers} (casts : SqlCasts)

/-- `setUp()`. -/
def setUp (db : SqlDatabase numbers) : Trapping (SqlDatabase numbers) := do
  let db ← DBKeycardPairingRepository.repository.setUp db
  DBKeycardKeyRepository.repository.setUp db

/-- `findPairing(instanceUID:)`. -/
def findPairing (instanceUID : Data) (db : SqlDatabase numbers) :
    Trapping (Option KeycardPairing) := do
  let found ← DBKeycardPairingRepository.repository.findAll casts "instance_uid"
    (.data instanceUID) true none db
  return found.head?

/-- `findKey(with:)`. -/
def findKey (address : Address) (db : SqlDatabase numbers) : Trapping (Option KeycardKey) := do
  let found ← DBKeycardKeyRepository.repository.findAll casts "address" (.string address.value)
    true (some "address") db
  return found.head?

/-- The calls of the repository among the messages of the program. -/
def answer (db : SqlDatabase numbers) :
    (m : KeycardMessage) → Option (Trapping (m.Answer × SqlDatabase numbers))
  | .findPairing instanceUID => some do return (← findPairing casts instanceUID db, db)
  | .savePairing pairing => some do
    return ((), ← DBKeycardPairingRepository.repository.save pairing db)
  | .removePairing pairing => some do
    return ((), ← DBKeycardPairingRepository.repository.remove pairing db)
  | .findKey address => some do return (← findKey casts address db, db)
  | .saveKey key => some do return ((), ← DBKeycardKeyRepository.repository.save key db)
  | .removeKey key => some do return ((), ← DBKeycardKeyRepository.repository.remove key db)
  | _ => none

/-- What a message hands to the repository is read unchanged. -/
def Plain : KeycardMessage → Prop
  | .savePairing pairing => DBKeycardPairingRepository.Plain pairing
  | .saveKey key => DBKeycardKeyRepository.Plain key
  | _ => True

/-- The tables of the database have the rows of these pairings and keys, and all of them are
read unchanged. -/
structure Holds (db : SqlDatabase numbers) (s : KeycardState) : Prop where
  pairings : DBKeycardPairingRepository.repository.Holds db s.pairings
  keys : DBKeycardKeyRepository.repository.Holds db s.keys
  plainPairings : ∀ pairing ∈ s.pairings.rows, DBKeycardPairingRepository.Plain pairing
  plainKeys : ∀ key ∈ s.keys.rows, DBKeycardKeyRepository.Plain key

variable {casts} {db db' : SqlDatabase numbers} {s : KeycardState}

theorem findPairing_eq (h : Holds db s) (instanceUID : Data) :
    findPairing casts instanceUID db = .ok (s.pairings.find instanceUID) := by
  have hfound : DBKeycardPairingRepository.repository.findAll casts "instance_uid"
      (.data instanceUID) true none db = .ok (s.pairings.find instanceUID).toList :=
    DBRepository.findAll_key_unchanged h.pairings (fun pairing hmem =>
      DBKeycardPairingRepository.loaded_eq_some_iff.mpr (h.plainPairings pairing hmem)) none
  rw [findPairing, hfound, Trapping.ok_bind, Option.head?_toList]
  rfl

theorem findKey_eq (h : Holds db s) (address : Address) :
    findKey casts address db = .ok (s.keys.find address) := by
  have hfound : DBKeycardKeyRepository.repository.findAll casts "address"
      (.string address.value) true (some "address") db = .ok (s.keys.find address).toList :=
    DBRepository.findAll_key_unchanged h.keys (fun key hmem =>
      DBKeycardKeyRepository.loaded_eq_some (h.plainKeys key hmem)) (some "address")
  rw [findKey, hfound, Trapping.ok_bind, Option.head?_toList]
  rfl

/-- The call of a message returns, and the database then holds what the message makes of the
tables. -/
theorem Holds.returns (h : Holds db s) {m : KeycardMessage} (hplain : Plain m)
    {call : Trapping (m.Answer × SqlDatabase numbers)} (hcall : answer casts db m = some call) :
    ∃ a db', call = .ok (a, db') ∧ s.Answers m a ∧ Holds db' (s.update m a) := by
  cases m with
  | findPairing instanceUID =>
      cases hcall
      exact ⟨_, db, by rw [findPairing_eq h]; rfl, rfl, h⟩
  | findKey address =>
      cases hcall
      exact ⟨_, db, by rw [findKey_eq h]; rfl, rfl, h⟩
  | savePairing pairing =>
      cases hcall
      obtain ⟨db', hsave, hholds, hothers⟩ := DBRepository.save_eq h.pairings
        (DBKeycardPairingRepository.storable pairing)
      refine ⟨(), db', by rw [hsave]; rfl, trivial, hholds, h.keys.of_eq (hothers _ (by decide)),
        fun other hmem => ?_, h.plainKeys⟩
      rcases Table.mem_rows_save.mp hmem with rfl | ⟨hold, -⟩
      · exact hplain
      · exact h.plainPairings other hold
  | removePairing pairing =>
      cases hcall
      obtain ⟨db', hremove, hholds, hothers⟩ := @DBRepository.remove_eq _ _ _ _ pairing _ _ _
        h.pairings
      exact ⟨(), db', by rw [hremove]; rfl, trivial, hholds, h.keys.of_eq (hothers _ (by decide)),
        fun other hmem => h.plainPairings other (Table.mem_rows_remove.mp hmem).1, h.plainKeys⟩
  | saveKey key =>
      cases hcall
      obtain ⟨db', hsave, hholds, hothers⟩ := DBRepository.save_eq h.keys
        (DBKeycardKeyRepository.storable key)
      refine ⟨(), db', by rw [hsave]; rfl, trivial, h.pairings.of_eq (hothers _ (by decide)),
        hholds, h.plainPairings, fun other hmem => ?_⟩
      rcases Table.mem_rows_save.mp hmem with rfl | ⟨hold, -⟩
      · exact hplain
      · exact h.plainKeys other hold
  | removeKey key =>
      cases hcall
      obtain ⟨db', hremove, hholds, hothers⟩ := @DBRepository.remove_eq _ _ _ _ key _ _ _ h.keys
      exact ⟨(), db', by rw [hremove]; rfl, trivial, h.pairings.of_eq (hothers _ (by decide)),
        hholds, h.plainPairings,
        fun other hmem => h.plainKeys other (Table.mem_rows_remove.mp hmem).1⟩
  | _ => cases hcall

/-- A message that is no call of the repository. -/
theorem Holds.update_of_other (h : Holds db s) {m : KeycardMessage} {a : m.Answer}
    (hnone : answer casts db m = none) : Holds db (s.update m a) := by
  have hsame : (s.update m a).pairings = s.pairings ∧ (s.update m a).keys = s.keys := by
    cases m <;> first | exact ⟨rfl, rfl⟩ | (cases a <;> exact ⟨rfl, rfl⟩) | cases hnone
  obtain ⟨hpairings, hkeys⟩ := hsame
  refine ⟨?_, ?_, ?_, ?_⟩
  · rw [hpairings]
    exact h.pairings
  · rw [hkeys]
    exact h.keys
  · rw [hpairings]
    exact h.plainPairings
  · rw [hkeys]
    exact h.plainKeys

/-- Tables that are missing are created without objects. -/
theorem setUp_fresh (hpairings : db "tbl_keycard_pairings" = none)
    (hkeys : db "tbl_keycard_keys" = none) :
    ∃ db', setUp db = .ok db' ∧ Holds db' .fresh := by
  obtain ⟨first, hfirst, hholds, hothers⟩ :=
    @DBRepository.setUp_of_missing _ _ _ DBKeycardPairingRepository.repository db hpairings
  have hmissing : first "tbl_keycard_keys" = none := (hothers _ (by decide)).trans hkeys
  obtain ⟨second, hsecond, hholds', hothers'⟩ :=
    @DBRepository.setUp_of_missing _ _ _ DBKeycardKeyRepository.repository first hmissing
  refine ⟨second, ?_, hholds.of_eq (hothers' _ (by decide)), hholds', ?_, ?_⟩
  · rw [setUp, hfirst, Trapping.ok_bind, hsecond]
  · exact fun _ hmem => (List.not_mem_nil hmem).elim
  · exact fun _ hmem => (List.not_mem_nil hmem).elim

end DBKeycardRepository

/-! ## The service on the database -/

/-- What the messages of the program add up to, and the database that answers its calls of
the repository. -/
structure KeycardDatabase (numbers : SqlNumbers) where
  program : KeycardState
  db : SqlDatabase numbers

namespace KeycardDatabase

variable {numbers : SqlNumbers}

/-- The database answers the calls of the repository, and any card the commands. What is saved
has no empty blob and no text with a zero. -/
def anyCard (encryption : KeycardEncryption) (casts : SqlCasts) :
    Partner KeycardMessage KeycardMessage.Answer (KeycardDatabase numbers) where
  inTurn s := s.program.InTurn encryption
  answers s m a s' := s'.program = s.program.update m a ∧
    match DBKeycardRepository.answer casts s.db m with
    | some call => DBKeycardRepository.Plain m ∧ call = .ok (a, s'.db)
    | none => s'.db = s.db
  tolerates _ := False

end KeycardDatabase

namespace KeycardHardwareService

open KeycardDatabase

variable {numbers : SqlNumbers}

/-- The service on a database. -/
def databaseService (encryption : KeycardEncryption) (casts : SqlCasts) :
    Service KeycardMessage KeycardMessage.Answer (KeycardDatabase numbers) KeycardError where
  partner := anyCard encryption casts
  starts _ p := Starts encryption p
  cuts s s' := s'.program = s.program.disconnected ∧ s'.db = s.db

/-- The database answers like the tables of the protocol. -/
theorem answers_of_database {encryption : KeycardEncryption} {casts : SqlCasts}
    {s s' : KeycardDatabase numbers} {m : KeycardMessage} {a : m.Answer}
    (hanswer : (anyCard encryption casts).answers s m a s')
    (h : DBKeycardRepository.Holds s.db s.program) :
    s.program.Answers m a ∧ DBKeycardRepository.Holds s'.db s'.program := by
  obtain ⟨hprogram, hdb⟩ := hanswer
  rw [hprogram]
  split at hdb
  · rename_i call hcall
    obtain ⟨hplain, hreply⟩ := hdb
    obtain ⟨a', db', hreply', hanswers, hholds⟩ := h.returns hplain hcall
    cases hreply.symm.trans hreply'
    exact ⟨hanswers, hholds⟩
  · rename_i hnone
    refine ⟨?_, hdb ▸ h.update_of_other hnone⟩
    cases m <;> trivial

/-- What a database adds to the protocol: the tables hold what the messages add up to. -/
def Stored (encryption : KeycardEncryption) (s : KeycardDatabase numbers) : Prop :=
  s.program.WellKept encryption ∧ DBKeycardRepository.Holds s.db s.program

/-- The programs of the service are safe with a database, as they are with the tables. -/
theorem starts_stored {encryption : KeycardEncryption} {casts : SqlCasts}
    {s : KeycardDatabase numbers} {p : Keycard Unit} (hstart : Starts encryption p)
    (h : Stored encryption s) :
    p.Safe (anyCard encryption casts) (Stored encryption) s (fun _ _ => True) fun _ _ => True := by
  obtain ⟨hkept, hholds⟩ := h
  refine Dialogue.Safe.refine (f := KeycardDatabase.program) (fun _ _ h => h) (fun _ h => h) ?_
    (starts_proper hstart hkept) hkept hholds
  rintro s m a s' - hanswer - hholds
  obtain ⟨hanswers, hholds'⟩ := answers_of_database hanswer hholds
  exact ⟨⟨hanswers, hanswer.1⟩, hholds'⟩

theorem cuts_stored {encryption : KeycardEncryption} {casts : SqlCasts}
    {s s' : KeycardDatabase numbers} (hcuts : (databaseService encryption casts).cuts s s')
    (h : Stored encryption s) : Stored encryption s' := by
  obtain ⟨hprogram, hdb⟩ := hcuts
  obtain ⟨hkept, hholds⟩ := h
  rw [Stored, hprogram, hdb]
  exact ⟨hkept.of_eq rfl rfl, hholds.pairings, hholds.keys, hholds.plainPairings,
    hholds.plainKeys⟩

/-- On a database, too, each message comes in turn, and every call of the repository returns,
as long as what is saved is read unchanged. -/
theorem database_inTurn {encryption : KeycardEncryption} {casts : SqlCasts}
    {db : SqlDatabase numbers} (hpairings : db "tbl_keycard_pairings" = none)
    (hkeys : db "tbl_keycard_keys" = none) :
    ∃ created, DBKeycardRepository.setUp db = .ok created ∧
      ∀ c, (databaseService encryption casts).Runs (none, ⟨.fresh, created⟩) c →
        DBKeycardRepository.Holds c.2.db c.2.program ∧ c.2.program.WellKept encryption ∧
        (∀ reason, c.1 ≠ some (.trap reason)) ∧
        ∀ m next, c.1 = some (.say m next) → c.2.program.InTurn encryption m ∧
          ∀ call, DBKeycardRepository.answer casts c.2.db m = some call →
            DBKeycardRepository.Plain m → ∃ a db', call = .ok (a, db') := by
  obtain ⟨created, hsetUp, hcreated⟩ := DBKeycardRepository.setUp_fresh hpairings hkeys
  refine ⟨created, hsetUp, fun c hruns => ?_⟩
  obtain ⟨⟨hkept, hholds⟩, hsafe⟩ := Service.inv_of_runs
    (fun _ _ hstart h => starts_stored hstart h) (fun _ _ hcuts h => cuts_stored hcuts h) hruns
    ⟨KeycardState.wellKept_fresh, hcreated⟩
  refine ⟨hholds, hkept, fun reason htrap => hsafe _ htrap, fun m next hsay =>
    ⟨(hsafe _ hsay).1, fun call hcall hplain => ?_⟩⟩
  obtain ⟨a, db', hreply, -⟩ := hholds.returns hplain hcall
  exact ⟨a, db', hreply⟩

section Example

open DBMigrationRepository (noNumbers noCasts)

/-- The tables are missing when the program is launched for the first time. A card is paired: its
pairing is not found, granted and stored, and the PIN is shown in turn. -/
theorem database_inTurn_paired :
    ∃ created db next,
      DBKeycardRepository.setUp (fun _ => none : SqlDatabase noNumbers) = .ok created ∧
      (databaseService anyEncryption noCasts).Runs (none, ⟨.fresh, created⟩)
        (some (.say (.authenticate "123456") next), ⟨pairedState, db⟩) ∧
      DBKeycardRepository.Holds db pairedState ∧
      pairedState.InTurn anyEncryption (.authenticate "123456") := by
  obtain ⟨created, hsetUp, hall⟩ := @database_inTurn noNumbers anyEncryption noCasts
    (fun _ => none) rfl rfl
  have hstart : (databaseService anyEncryption noCasts).Runs (none, ⟨.fresh, created⟩)
      (some (pair anyEncryption "safe" "123456" 0 >>= fun _ => pure ()), ⟨.fresh, created⟩) :=
    .single (.start (.pair "safe" "123456" 0))
  have hconnected := hstart.tail (@Service.Step.say _ _ _ _ (databaseService anyEncryption noCasts)
    _ ⟨_, created⟩ .connect _ (Except.ok ()) ⟨rfl, rfl⟩)
  have hselected := hconnected.tail (@Service.Step.say _ _ _ _
    (databaseService anyEncryption noCasts) _ ⟨_, created⟩ .selectApplet _ (Except.ok newCard)
    ⟨rfl, rfl⟩)
  obtain ⟨found, db₁, hfind, hnone, -⟩ := (hall _ hselected).1.returns
    (m := .findPairing [1]) trivial rfl
  obtain rfl : found = none := hnone
  have hfound := hselected.tail (@Service.Step.say _ _ _ _ (databaseService anyEncryption noCasts)
    _ ⟨_, db₁⟩ (.findPairing [1]) _ none ⟨rfl, trivial, hfind⟩)
  have hgranted := hfound.tail (@Service.Step.say _ _ _ _ (databaseService anyEncryption noCasts)
    _ ⟨_, db₁⟩ (.pair "safe") _ (Except.ok granted) ⟨rfl, rfl⟩)
  have hplain : DBKeycardRepository.Plain (.savePairing ⟨[1], 0, [7]⟩) := by
    simp [DBKeycardRepository.Plain, DBKeycardPairingRepository.Plain]
  obtain ⟨⟨⟩, db₂, hsave⟩ := ((hall _ hgranted).2.2.2 _ _ rfl).2 _ rfl hplain
  have hsaved := hgranted.tail (@Service.Step.say _ _ _ _ (databaseService anyEncryption noCasts)
    _ ⟨_, db₂⟩ (.savePairing ⟨[1], 0, [7]⟩) _ () ⟨rfl, hplain, hsave⟩)
  have hopened := hsaved.tail (@Service.Step.say _ _ _ _ (databaseService anyEncryption noCasts)
    _ ⟨pairedState, db₂⟩ .openSecureChannel _ (Except.ok ()) ⟨rfl, rfl⟩)
  obtain ⟨hholds, -, -, hturn⟩ := hall _ hopened
  exact ⟨created, db₂, _, hsetUp, hopened, hholds, (hturn _ _ rfl).1⟩

end Example

end KeycardHardwareService

end SafeWallet
