/-
# No handle is used after its end, and none is left behind

Whatever SQLite answers, and wherever a call of the database throws, every statement
is finalized exactly once and before its connection is closed, no finalized statement
and no closed connection is used again, and between two calls of the database the only
open handles are those that the wrapper drops: `sqlite3_open` may hand out a handle
although it fails, and nobody closes this one. Of `sqlite3_close` it is assumed that it
succeeds or is busy, as documented for connections without statements.
-/

import Mathlib.Data.Finset.Basic
import SafeWallet.Database.SQLite

namespace SafeWallet

/-- The handles that are alive, and the list of connections with their statements. Handles
are numbered, so that a new one differs from all earlier ones. The dropped ones came with a
failed `sqlite3_open`. -/
structure SQLiteState where
  openDbs : Finset ℕ
  dropped : Finset ℕ
  stmts : Finset (ℕ × ℕ)
  next : ℕ
  connections : List ℕ
  statements : ℕ → List ℕ
  closed : Finset ℕ

namespace SQLiteState

/-- The program has just been launched. -/
def launched : SQLiteState := ⟨∅, ∅, ∅, 0, [], fun _ => [], ∅⟩

/-- The statement is alive. -/
def Alive (s : SQLiteState) (stmt : ℕ) : Prop := ∃ db, (stmt, db) ∈ s.stmts

/-- Which handles a call may use. -/
def InTurn (s : SQLiteState) : SQLiteCall → Prop
  | .close db => db ∈ s.openDbs ∧ ∀ stmt, (stmt, db) ∉ s.stmts
  | .prepare db _ => db ∈ s.openDbs
  | .getAutocommit db => db ∈ s.openDbs
  | .errmsg db => db ∈ s.openDbs
  | .finalize stmt => s.Alive stmt
  | .step stmt => s.Alive stmt
  | .reset stmt => s.Alive stmt
  | .bindParameterIndex stmt _ => s.Alive stmt
  | .bind stmt _ _ => s.Alive stmt
  | .columnCount stmt => s.Alive stmt
  | .columnName stmt _ => s.Alive stmt
  | .columnIsNull stmt _ => s.Alive stmt
  | .column stmt _ _ => s.Alive stmt
  | .columnBytes stmt _ => s.Alive stmt
  | _ => True

/-- What an answer makes of the handles and of the list. -/
def Answers (s : SQLiteState) : (m : SQLiteCall) → m.Answer → SQLiteState → Prop
  | .open, (_, none), s' => s' = s
  | .open, (status, some db), s' => db = s.next ∧ s' = { s with
      openDbs := insert db s.openDbs
      dropped := if status = .ok then s.dropped else insert db s.dropped
      next := s.next + 1 }
  | .close db, status, s' =>
    if status = SQLiteStatus.ok then s' = { s with openDbs := s.openDbs.erase db }
    else status = SQLiteStatus.busy ∧ s' = s
  | .prepare db _, answer, s' =>
    if answer.1 = .ok ∧ answer.2.isSome then answer.2 = some s.next ∧
      s' = { s with stmts := insert (s.next, db) s.stmts, next := s.next + 1 }
    else s' = s
  | .finalize stmt, _, s' => s' = { s with stmts := s.stmts.filter fun entry => entry.1 ≠ stmt }
  | .appendConnection db, _, s' => s' = { s with
      connections := s.connections ++ [db], statements := Function.update s.statements db [] }
  | .appendStatement db stmt, _, s' => s' = { s with
      statements := Function.update s.statements db (s.statements db ++ [stmt]) }
  | .isClosed db, answer, s' => answer = decide (db ∈ s.closed) ∧ s' = s
  | .statements db, answer, s' => answer = s.statements db ∧ s' = s
  | .setClosed db, _, s' => s' = { s with closed := insert db s.closed }
  | .removeConnection db, _, s' => s' = { s with connections := s.connections.erase db }
  | .connections, answer, s' => answer = s.connections ∧ s' = s
  | .removeAllConnections, _, s' => s' = { s with connections := [] }
  | _, _, s' => s' = s

/-- The library. -/
def library : Partner SQLiteCall SQLiteCall.Answer SQLiteState where
  inTurn := InTurn
  answers := Answers
  tolerates _ := True

/-- No connection is open, apart from the dropped handles. -/
structure AtRest (s : SQLiteState) : Prop where
  openDbs : s.openDbs = s.dropped
  dropped : ∀ db ∈ s.dropped, db < s.next
  stmts : s.stmts = ∅
  connections : s.connections = []
  closed : ∀ db ∈ s.closed, db < s.next

/-- One connection is open, and these are its statements. -/
structure Opened (db : ℕ) (ids : List ℕ) (s : SQLiteState) : Prop where
  openDbs : s.openDbs = insert db s.dropped
  kept : db ∉ s.dropped
  dropped : ∀ d ∈ s.dropped, d < s.next
  stmts : ∀ stmt d, (stmt, d) ∈ s.stmts ↔ stmt ∈ ids ∧ d = db
  nodup : ids.Nodup
  connections : s.connections = [db]
  opened : db ∉ s.closed
  closed : ∀ d ∈ s.closed, d < s.next
  db_lt : db < s.next

/-- The connection remembers its statements. -/
structure Working (db : ℕ) (ids : List ℕ) (s : SQLiteState) : Prop extends Opened db ids s where
  fresh : ∀ stmt ∈ ids, stmt < s.next
  statements : s.statements db = ids

/-- The connection is open, with any statements. -/
def Connected (db : ℕ) (s : SQLiteState) : Prop := ∃ ids, s.Working db ids

/-- The connection has been closed but is still in the list. -/
structure Finished (db : ℕ) (s : SQLiteState) : Prop where
  openDbs : s.openDbs = s.dropped
  dropped : ∀ d ∈ s.dropped, d < s.next
  stmts : s.stmts = ∅
  connections : s.connections = [db]
  closed : ∀ d ∈ s.closed, d < s.next

end SQLiteState

namespace SQLite

open SQLiteState

/-- Safety with the library. -/
abbrev Proper {α : Type} (p : SQLite α) (s : SQLiteState) (ok : α → SQLiteState → Prop)
    (err : SQLiteError → SQLiteState → Prop) : Prop :=
  p.Safe library (fun _ => True) s ok err

/-- Safety with one statement about the results and the errors. -/
abbrev Ends {α : Type} (p : SQLite α) (s : SQLiteState) (post : SQLiteState → Prop) : Prop :=
  Proper p s (fun _ => post) fun _ => post

/-- Calls that leave the handles as they are. -/
abbrev Quiet {α : Type} (p : SQLite α) (s : SQLiteState) : Prop :=
  Ends p s fun s' => s' = s

variable {α β : Type} {s : SQLiteState} {during post : SQLiteState → Prop}

theorem Ends.bind {p : SQLite α} {k : α → SQLite β} (hp : Ends p s post)
    (hk : ∀ a s', post s' → Ends (k a) s' post) : Ends (p >>= k) s post := by
  apply Dialogue.Safe.bind
  exact hp.mono hk fun _ _ h => h

theorem Ends.orElse {p : SQLite α} {handler : SQLiteError → SQLite α} (hp : Ends p s post)
    (hhandler : ∀ e s', post s' → Ends (handler e) s' post) :
    Ends (p.orElse handler) s post := by
  apply Dialogue.Safe.orElse
  exact hp.mono (fun _ _ h => h) hhandler

theorem Ends.deferring {p : SQLite α} {cleanup : SQLite Unit} (hp : Ends p s during)
    (hcleanup : ∀ s', during s' → Proper cleanup s' (fun _ => post) fun _ _ => False) :
    Ends (p.deferring cleanup) s post := by
  apply Dialogue.Safe.deferring
  exact hp.mono (fun _ => hcleanup) fun _ => hcleanup

theorem Quiet.bind {p : SQLite α} {k : α → SQLite β} (hp : Quiet p s)
    (hk : ∀ a, Quiet (k a) s) : Quiet (p >>= k) s :=
  Ends.bind hp fun a _ hs' => hs' ▸ hk a

theorem Quiet.each {bs : List β} {f : β → SQLite Unit} (h : ∀ b, Quiet (f b) s) :
    Quiet (Dialogue.each bs f) s :=
  Dialogue.Safe.each rfl fun b _ _ hs' => hs' ▸ h b

/-- A call on a live handle that changes no handle. -/
theorem Quiet.say {m : SQLiteCall} {next : m.Answer → SQLite α} (hturn : s.InTurn m)
    (hsame : ∀ a s', s.Answers m a s' → s' = s) (hnext : ∀ a, Quiet (next a) s) :
    Quiet (.say m next) s := by
  refine ⟨hturn, fun a s' hanswer => ⟨trivial, ?_⟩⟩
  rw [hsame a s' hanswer]
  exact hnext a

end SQLite

/-- A live statement of an open connection. -/
structure SQLiteState.Usable (s : SQLiteState) (db stmt : ℕ) : Prop where
  db_open : db ∈ s.openDbs
  alive : (stmt, db) ∈ s.stmts

theorem SQLiteState.Working.usable {s : SQLiteState} {db stmt : ℕ} {ids : List ℕ}
    (h : s.Working db ids) (hmem : stmt ∈ ids) : s.Usable db stmt :=
  ⟨by simp [h.openDbs], (h.stmts stmt db).mpr ⟨hmem, rfl⟩⟩

/-! ## Statements and rows -/

namespace SQLiteStatement

open SQLite SQLiteState

variable {s : SQLiteState} {statement : SQLiteStatement}

theorem setAt_quiet {value : SQLBindable} {index : ℕ}
    (h : s.Usable statement.db statement.stmt) : Quiet (statement.setAt value index) s := by
  unfold setAt
  split
  · rfl
  · split
    · rfl
    · refine Quiet.say ⟨_, h.alive⟩ (fun _ _ hsame => hsame) fun status => ?_
      split
      · rfl
      · split
        · rfl
        · exact Quiet.say h.db_open (fun _ _ hsame => hsame) fun _ => rfl

theorem bindAll_quiet {bindings : List SQLBindable}
    (h : s.Usable statement.db statement.stmt) : Quiet (statement.bindAll bindings) s :=
  Quiet.each fun _ => setAt_quiet h

theorem bindKeys_quiet {dict : List (String × SQLBindable)}
    (h : s.Usable statement.db statement.stmt) : Quiet (statement.bindKeys dict) s :=
  Quiet.each fun _ => Quiet.say ⟨_, h.alive⟩ (fun _ _ hsame => hsame) fun _ => setAt_quiet h

theorem columnNames_quiet {db stmt : ℕ} (h : s.Usable db stmt) (count index : ℕ)
    (columnIndexes : List (String × ℕ)) : Quiet (columnNames stmt count index columnIndexes) s := by
  induction count generalizing index columnIndexes with
  | zero => rfl
  | succ count ih =>
      refine Quiet.say ⟨_, h.alive⟩ (fun _ _ hsame => hsame) fun name => ?_
      cases name with
      | none => exact ih _ _
      | some name => exact ih _ _

theorem resetWhileBusy_quiet {db stmt : ℕ} (h : s.Usable db stmt) (rounds : ℕ) :
    Quiet (resetWhileBusy db stmt rounds) s := by
  induction rounds with
  | zero => trivial
  | succ rounds ih =>
      refine Quiet.say ⟨_, h.alive⟩ (fun _ _ hsame => hsame) fun status => ?_
      split
      · exact ih
      · split
        · rfl
        · exact Quiet.say h.db_open (fun _ _ hsame => hsame) fun _ => trivial

/-- The result set reads from the statement. -/
theorem resultSet_proper {db stmt : ℕ} (h : s.Usable db stmt) (rounds : ℕ) :
    Proper (resultSet rounds db stmt) s (fun rs s' => s' = s ∧ rs.db = db ∧ rs.stmt = stmt)
      fun _ s' => s' = s := by
  apply Dialogue.Safe.bind
  refine (resetWhileBusy_quiet h rounds).mono (fun _ s' hs' => ?_) fun _ _ h => h
  subst hs'
  refine ⟨⟨_, h.alive⟩, fun count s'' hanswer => ⟨trivial, ?_⟩⟩
  cases hanswer
  apply Dialogue.Safe.bind
  exact (columnNames_quiet h count 0 []).mono (fun _ s'' hs'' => ⟨hs'', rfl, rfl⟩) fun _ _ h => h

theorem execute_proper (h : s.Usable statement.db statement.stmt) (patience rounds : ℕ) :
    Proper (statement.execute patience rounds) s
      (fun executed s' => s' = s ∧ ∀ rs, executed.2 = some rs →
        rs.db = statement.db ∧ rs.stmt = statement.stmt) fun _ s' => s' = s := by
  induction rounds with
  | zero => trivial
  | succ rounds ih =>
      unfold execute
      split
      · rfl
      · split
        · rfl
        · refine ⟨⟨_, h.alive⟩, fun status s' hanswer => ⟨trivial, ?_⟩⟩
          cases hanswer
          dsimp only
          split
          · exact ⟨rfl, fun rs hrs => (by cases hrs)⟩
          · apply Dialogue.Safe.bind
            refine (resultSet_proper h patience).mono ?_ fun _ _ h => h
            rintro rs s' ⟨rfl, hdb, hstmt⟩
            refine ⟨rfl, fun rs' hrs' => ?_⟩
            cases hrs'
            exact ⟨hdb, hstmt⟩
          · refine ⟨h.db_open, fun autocommit s' hanswer => ⟨trivial, ?_⟩⟩
            cases hanswer
            dsimp only
            split
            · exact ih
            · rfl
          · exact ⟨h.db_open, fun _ s' hsame => ⟨trivial, hsame⟩⟩
          · rfl
          · exact ⟨h.db_open, fun _ s' hanswer => ⟨trivial, trivial⟩⟩

end SQLiteStatement

namespace SQLiteResultSet

open SQLite SQLiteState

variable {s : SQLiteState} {rs : SQLiteResultSet}

theorem advanceToNextRow_quiet (h : s.Usable rs.db rs.stmt) (rounds : ℕ) :
    Quiet (rs.advanceToNextRow rounds) s := by
  induction rounds with
  | zero => trivial
  | succ rounds ih =>
      refine Quiet.say ⟨_, h.alive⟩ (fun _ _ hsame => hsame) fun status => ?_
      split
      · rfl
      · rfl
      · refine Quiet.say h.db_open (fun _ _ hsame => hsame) fun autocommit => ?_
        split
        · exact ih
        · rfl
      · exact Quiet.say h.db_open (fun _ _ hsame => hsame) fun _ => trivial

theorem valueAt_quiet {index : ℕ} {type : ColumnType} (h : s.Usable rs.db rs.stmt) :
    Quiet (rs.valueAt index type) s := by
  refine Quiet.say ⟨_, h.alive⟩ (fun _ _ hsame => hsame) fun count => ?_
  split
  · trivial
  · refine Quiet.say ⟨_, h.alive⟩ (fun _ _ hsame => hsame) fun isNull => ?_
    split
    · rfl
    · refine Quiet.say ⟨_, h.alive⟩ (fun _ _ hsame => hsame) fun value => ?_
      split
      · exact Quiet.say ⟨_, h.alive⟩ (fun _ _ hsame => hsame) fun _ => rfl
      · exact Quiet.say ⟨_, h.alive⟩ (fun _ _ hsame => hsame) fun _ => rfl
      · rfl

theorem value_quiet {key : ColumnKey} {type : ColumnType} (h : s.Usable rs.db rs.stmt) :
    Quiet (rs.value key type) s := by
  cases key with
  | index index => exact valueAt_quiet h
  | name column =>
      unfold value
      simp only
      split
      · rfl
      · exact valueAt_quiet h

theorem values_quiet (columns : List (ColumnKey × ColumnType)) (h : s.Usable rs.db rs.stmt) :
    Quiet (rs.values columns) s := by
  induction columns with
  | nil => rfl
  | cons column rest ih => exact Quiet.bind (value_quiet h) fun _ => Quiet.bind ih fun _ => rfl

theorem mapRows_quiet {T : Type} {resultMap : ResultMap T} {patience : ℕ}
    (h : s.Usable rs.db rs.stmt) (rounds : ℕ) (result : List (Option T)) :
    Quiet (rs.mapRows resultMap patience rounds result) s := by
  induction rounds generalizing result with
  | zero => trivial
  | succ rounds ih =>
      refine Quiet.bind (advanceToNextRow_quiet h patience) fun more => ?_
      cases more with
      | false => rfl
      | true =>
          refine Quiet.bind (values_quiet resultMap.columns h) fun values => ?_
          cases resultMap.map values with
          | error e => rfl
          | ok mapped => exact ih _

end SQLiteResultSet

/-! ## Connections -/

namespace SQLite

open SQLiteState

variable {s : SQLiteState} {during : SQLiteState → Prop}

theorem waitWhileBusy_succ (m : SQLiteCall) (status : m.Answer → SQLiteStatus)
    (rounds retries : ℕ) : waitWhileBusy m status (rounds + 1) retries = .say m fun answer =>
      if status answer = .busy then waitWhileBusy m status rounds retries
      else if (status answer = .auth ∨ status answer = .ioerr) ∧ retries < 3 then
        waitWhileBusy m status rounds (retries + 1)
      else .pure answer := rfl

/-- Waiting says one message over and over; only the last answer counts when the earlier
ones keep what is known. -/
theorem waitWhileBusy_proper {m : SQLiteCall} {status : m.Answer → SQLiteStatus}
    {ok : m.Answer → SQLiteState → Prop} {err : SQLiteError → SQLiteState → Prop}
    (hs : during s) (hturn : ∀ s, during s → s.InTurn m)
    (hkeep : ∀ s a s', during s → s.Answers m a s' → status a ≠ .ok → during s')
    (hok : ∀ s a s', during s → s.Answers m a s' → status a ≠ .busy → ok a s')
    (rounds retries : ℕ) :
    Proper (waitWhileBusy m status rounds retries) s ok err := by
  induction rounds generalizing retries s with
  | zero => trivial
  | succ rounds ih =>
      rw [waitWhileBusy_succ]
      refine ⟨hturn s hs, fun a s' hanswer => ⟨trivial, ?_⟩⟩
      by_cases hbusy : status a = .busy
      · have hs' : during s' := hkeep s a s' hs hanswer (by simp [hbusy])
        simpa [hbusy] using ih hs' retries
      · by_cases hretry : (status a = .auth ∨ status a = .ioerr) ∧ retries < 3
        · have hs' : during s' := hkeep s a s' hs hanswer (by
            rcases hretry.1 with h | h <;> simp [h])
          simpa [hbusy, hretry] using ih hs' (retries + 1)
        · simp only [if_neg hbusy, if_neg hretry]
          exact hok s a s' hs hanswer hbusy

end SQLite

namespace SQLiteConnection

open SQLite SQLiteState

variable {s : SQLiteState} {db : ℕ} {ids : List ℕ} {patience : ℕ}

/-- The statement has been entered into the list of its connection. -/
theorem Working.appended {stmt : ℕ} (h : s.Working db ids) (hstmt : stmt = s.next) :
    SQLiteState.Working db (ids ++ [stmt]) { s with
      stmts := insert (stmt, db) s.stmts
      next := s.next + 1
      statements := Function.update s.statements db (s.statements db ++ [stmt]) } where
  openDbs := h.openDbs
  kept := h.kept
  dropped d hd := (h.dropped d hd).trans (Nat.lt_succ_self _)
  stmts stmt' d := by
    simp only [Finset.mem_insert, Prod.mk.injEq, h.stmts, List.mem_append, List.mem_singleton]
    tauto
  nodup := by
    refine List.nodup_append.mpr ⟨h.nodup, by simp, ?_⟩
    intro a ha b hb
    have := h.fresh a ha
    simp only [List.mem_singleton] at hb
    omega
  fresh stmt' hmem := by
    rcases List.mem_append.mp hmem with hmem | hmem
    · exact (h.fresh stmt' hmem).trans (Nat.lt_succ_self _)
    · simp only [List.mem_singleton] at hmem
      subst hmem hstmt
      exact Nat.lt_succ_self _
  connections := h.connections
  statements := by simp [h.statements]
  opened := h.opened
  closed d hd := (h.closed d hd).trans (Nat.lt_succ_self _)
  db_lt := h.db_lt.trans (Nat.lt_succ_self _)

theorem prepare_proper (h : s.Working db ids) (sql : String) :
    Proper (prepare patience db sql) s
      (fun statement s' => statement.db = db ∧ SQLiteState.Working db (ids ++ [statement.stmt]) s')
      fun _ s' => s'.Working db ids := by
  have hopen : db ∈ s.openDbs := by simp [h.openDbs]
  refine ⟨trivial, fun isClosed s' hanswer => ⟨trivial, ?_⟩⟩
  obtain ⟨_, hs'⟩ := hanswer
  subst s'
  dsimp only
  split
  · exact h
  · apply Dialogue.Safe.bind
    refine @waitWhileBusy_proper s (fun s' => s = s') (.prepare db sql) _ _ _ rfl ?_ ?_ ?_ patience 0
    · rintro _ rfl
      exact hopen
    · rintro _ answer s' rfl hanswer hstatus
      have hs' : s' = s := by simpa [Answers, hstatus] using hanswer
      exact hs'.symm
    · rintro _ answer s' rfl hanswer _
      split
      next hstatus =>
        have hs' : s' = s := by simpa [Answers, hstatus] using hanswer
        subst s'
        exact ⟨hopen, fun _ s' hsame => ⟨trivial, hsame ▸ h⟩⟩
      next hstatus =>
        have hok : answer.1 = .ok := not_not.mp hstatus
        obtain ⟨status, stmt⟩ := answer
        cases stmt with
        | none =>
            have hs' : s' = s := by simpa [Answers] using hanswer
            exact hs' ▸ h
        | some stmt =>
            obtain ⟨hstmt, rfl⟩ : some stmt = some s.next ∧ s' = { s with
                stmts := insert (s.next, db) s.stmts, next := s.next + 1 } := by
              simpa [Answers, show status = .ok from hok] using hanswer
            cases hstmt
            refine ⟨trivial, fun _ s' hanswer => ⟨trivial, rfl, ?_⟩⟩
            cases hanswer
            exact Working.appended h rfl

/-- A command leaves the connection open, with the statement that was prepared. -/
theorem execute_proper {T : Type} (h : s.Connected db) (sql : String)
    (bindings : List SQLBindable) (dict : List (String × SQLBindable))
    (resultMap : ResultMap T) :
    Ends (execute patience db sql bindings dict resultMap) s (SQLiteState.Connected db) := by
  obtain ⟨ids, h⟩ := h
  apply Dialogue.Safe.bind
  refine (prepare_proper h sql).mono ?_ fun _ _ h => ⟨ids, h⟩
  rintro statement s' ⟨rfl, hworking⟩
  have husable :=
    hworking.usable (List.mem_append_right ids (List.mem_singleton_self statement.stmt))
  have hkeep : ∀ s'', s'' = s' → SQLiteState.Connected statement.db s'' :=
    fun s'' hs'' => hs'' ▸ ⟨_, hworking⟩
  apply Dialogue.Safe.bind
  refine (SQLiteStatement.bindAll_quiet husable).mono ?_ fun _ => hkeep
  rintro _ _ rfl
  apply Dialogue.Safe.bind
  refine (SQLiteStatement.bindKeys_quiet husable).mono ?_ fun _ => hkeep
  rintro _ _ rfl
  apply Dialogue.Safe.bind
  refine (SQLiteStatement.execute_proper husable patience patience).mono ?_ fun _ => hkeep
  rintro ⟨executed, rs⟩ _ ⟨rfl, hrs⟩
  cases rs with
  | none => exact ⟨_, hworking⟩
  | some rs =>
      obtain ⟨hdb, hstmt⟩ := hrs rs rfl
      refine (SQLiteResultSet.mapRows_quiet ?_ patience []).mono (fun _ => hkeep) fun _ => hkeep
      rw [hdb, hstmt]
      exact husable

theorem Opened.finalized {stmt : ℕ} (h : s.Opened db (stmt :: ids)) :
    SQLiteState.Opened db ids
      { s with stmts := s.stmts.filter fun entry => entry.1 ≠ stmt } where
  openDbs := h.openDbs
  kept := h.kept
  dropped := h.dropped
  stmts stmt' d := by
    obtain ⟨hnotin, _⟩ := List.nodup_cons.mp h.nodup
    simp only [Finset.mem_filter, h.stmts, List.mem_cons]
    constructor
    · rintro ⟨⟨rfl | hmem, hd⟩, hne⟩
      · exact absurd rfl hne
      · exact ⟨hmem, hd⟩
    · rintro ⟨hmem, hd⟩
      exact ⟨⟨.inr hmem, hd⟩, fun heq => hnotin (heq ▸ hmem)⟩
  nodup := (List.nodup_cons.mp h.nodup).2
  connections := h.connections
  opened := h.opened
  closed := h.closed
  db_lt := h.db_lt

/-- Each statement is finalized once. -/
theorem finalizeAll_proper (h : s.Opened db ids) :
    Proper (Dialogue.each ids fun stmt => .say (.finalize stmt) fun _ => .pure ()) s
      (fun _ s' => s'.Opened db []) fun _ _ => False := by
  induction ids generalizing s with
  | nil => exact h
  | cons stmt ids ih =>
      refine ⟨⟨db, (h.stmts stmt db).mpr ⟨List.mem_cons_self, rfl⟩⟩, fun _ s' hanswer => ?_⟩
      refine ⟨trivial, ih ?_⟩
      cases hanswer
      exact Opened.finalized h

theorem destroyAllStatements_proper (h : s.Working db ids) :
    Proper (destroyAllStatements db) s (fun _ s' => s'.Opened db []) fun _ _ => False := by
  refine ⟨trivial, fun statements s' hanswer => ⟨trivial, ?_⟩⟩
  obtain ⟨hstatements, hs'⟩ := hanswer
  subst s'
  rw [show statements = ids from hstatements.trans h.statements]
  exact finalizeAll_proper h.toOpened

/-- Closing an open connection cannot fail, because its statements are finalized first. -/
theorem close_proper (h : s.Working db ids) :
    Proper (close patience db) s (fun _ s' => s'.Finished db) fun _ _ => False := by
  refine ⟨trivial, fun isClosed s' hanswer => ⟨trivial, ?_⟩⟩
  obtain ⟨hclosed, hs'⟩ := hanswer
  subst s'
  have hopened : ¬ isClosed = true := by simpa [h.opened] using hclosed
  simp only [if_neg hopened]
  apply Dialogue.Safe.bind
  refine (destroyAllStatements_proper h).mono (fun _ s' hopened => ?_) fun _ _ hfalse => hfalse
  apply Dialogue.Safe.bind
  have hturn : s'.InTurn (.close db) :=
    ⟨by simp [hopened.openDbs], fun stmt hmem => by simpa using (hopened.stmts stmt db).mp hmem⟩
  refine @waitWhileBusy_proper s' (fun s'' => s'' = s') (.close db) _ _ _ rfl ?_ ?_ ?_ patience 0
  · rintro _ rfl
    exact hturn
  · rintro _ status s'' rfl hanswer hstatus
    simp only [Answers, if_neg (show ¬ status = .ok from hstatus)] at hanswer
    exact hanswer.2
  · rintro _ status s'' rfl hanswer hbusy
    by_cases hstatus : status = SQLiteStatus.ok
    · simp only [Answers, if_pos hstatus] at hanswer
      rw [if_neg (not_not.mpr hstatus)]
      refine ⟨trivial, fun _ s''' hset => ⟨trivial, ?_⟩⟩
      subst hanswer hset
      exact {
        openDbs := by simp [hopened.openDbs, hopened.kept]
        dropped := hopened.dropped
        stmts := by
          refine Finset.eq_empty_of_forall_notMem fun entry hmem => ?_
          simpa using (hopened.stmts entry.1 entry.2).mp hmem
        connections := hopened.connections
        closed := by
          intro d hd
          rcases Finset.mem_insert.mp hd with rfl | hd
          · exact hopened.db_lt
          · exact hopened.closed d hd }
    · simp only [Answers, if_neg hstatus] at hanswer
      exact absurd hanswer.1 hbusy

end SQLiteConnection

/-! ## The database -/

namespace SQLiteDatabase

open SQLite SQLiteState

variable {s : SQLiteState} {db : ℕ} {ids : List ℕ} {patience : ℕ}

/-- A handle that comes with a failure is dropped. -/
theorem AtRest.failed {s' : SQLiteState} {status : SQLiteStatus} {handle : Option ℕ}
    (h : s.AtRest) (hanswer : s.Answers .open (status, handle) s') (hstatus : status ≠ .ok) :
    s'.AtRest := by
  cases handle with
  | none =>
      have hs' : s' = s := hanswer
      exact hs' ▸ h
  | some db =>
      obtain ⟨rfl, rfl⟩ := hanswer
      exact {
        openDbs := by simp [hstatus, h.openDbs]
        dropped := by
          intro d hd
          rw [if_neg hstatus] at hd
          rcases Finset.mem_insert.mp hd with rfl | hd
          · exact Nat.lt_succ_self _
          · exact (h.dropped d hd).trans (Nat.lt_succ_self _)
        stmts := h.stmts
        connections := h.connections
        closed := fun d hd => (h.closed d hd).trans (Nat.lt_succ_self _) }

/-- The new connection has been entered into the list. -/
theorem AtRest.opened {status : SQLiteStatus} (h : s.AtRest) (hstatus : status = .ok) :
    SQLiteState.Working s.next [] { s with
      openDbs := insert s.next s.openDbs
      dropped := if status = .ok then s.dropped else insert s.next s.dropped
      next := s.next + 1
      connections := s.connections ++ [s.next]
      statements := Function.update s.statements s.next [] } where
  openDbs := by simp [hstatus, h.openDbs]
  kept hmem := by
    rw [if_pos hstatus] at hmem
    exact (h.dropped _ hmem).false
  dropped d hd := by
    rw [if_pos hstatus] at hd
    exact (h.dropped d hd).trans (Nat.lt_succ_self _)
  stmts := by simp [h.stmts]
  nodup := List.nodup_nil
  connections := by simp [h.connections]
  opened hmem := (h.closed _ hmem).false
  closed d hd := (h.closed d hd).trans (Nat.lt_succ_self _)
  db_lt := Nat.lt_succ_self _
  fresh := by simp
  statements := by simp

theorem connection_proper (h : s.AtRest) :
    Proper (connection patience) s (fun db s' => s'.Working db []) fun _ s' => s'.AtRest := by
  refine ⟨trivial, fun found s' hsame => ⟨trivial, ?_⟩⟩
  cases hsame
  dsimp only
  split
  · exact h
  · refine ⟨trivial, fun supported s' hsame => ⟨trivial, ?_⟩⟩
    cases hsame
    dsimp only
    split
    · exact h
    · apply Dialogue.Safe.bind
      refine @waitWhileBusy_proper s AtRest .open _ _ _ h (fun _ _ => trivial) ?_ ?_ patience 0
      · rintro s ⟨status, handle⟩ s' h hanswer hstatus
        exact AtRest.failed h hanswer hstatus
      · rintro s ⟨status, handle⟩ s' h hanswer _
        by_cases hstatus : status = .ok
        · rw [if_neg (not_not.mpr hstatus)]
          cases handle with
          | none =>
              have hs' : s' = s := hanswer
              exact hs' ▸ h
          | some db =>
              obtain ⟨rfl, rfl⟩ := hanswer
              refine ⟨trivial, fun _ s' hanswer => ⟨trivial, ?_⟩⟩
              cases hanswer
              exact AtRest.opened h hstatus
        · rw [if_pos hstatus]
          exact AtRest.failed h hanswer hstatus

theorem close_proper (h : s.Working db ids) :
    Proper (close patience db) s (fun _ s' => s'.AtRest) fun _ _ => False := by
  apply Dialogue.Safe.bind
  refine (SQLiteConnection.close_proper h).mono (fun _ s' hfinished => ?_) fun _ _ h => h
  refine ⟨trivial, fun _ s'' hanswer => ⟨trivial, ?_⟩⟩
  cases hanswer
  exact ⟨hfinished.openDbs, hfinished.dropped, hfinished.stmts, by simp [hfinished.connections],
    hfinished.closed⟩

theorem tryClose_proper (s : SQLiteState) (h : s.Connected db) :
    Proper (tryClose patience db) s (fun _ s' => s'.AtRest) fun _ _ => False := by
  obtain ⟨ids, h⟩ := h
  apply Dialogue.Safe.orElse
  exact (close_proper h).mono (fun _ _ h => h) fun _ _ hfalse => hfalse.elim

theorem execute_proper {T : Type} (h : s.AtRest) (sql : String) (bindings : List SQLBindable)
    (dict : List (String × SQLBindable)) (resultMap : ResultMap T) :
    Ends (execute patience sql bindings dict resultMap) s AtRest := by
  apply Dialogue.Safe.bind
  refine (connection_proper h).mono (fun conn s' hworking => ?_) fun _ _ h => h
  exact Ends.deferring
    (SQLiteConnection.execute_proper ⟨[], hworking⟩ sql bindings dict resultMap) tryClose_proper

theorem destroy_proper (h : s.AtRest) :
    Ends (destroy patience) s AtRest := by
  refine ⟨trivial, fun connections s' hanswer => ⟨trivial, ?_⟩⟩
  obtain ⟨hconnections, hs'⟩ := hanswer
  subst s'
  rw [show connections = [] from hconnections.trans h.connections]
  refine ⟨trivial, fun _ s' hanswer => ⟨trivial, ?_⟩⟩
  have hrest : s'.AtRest := by
    cases hanswer
    exact ⟨h.openDbs, h.dropped, h.stmts, rfl, h.closed⟩
  refine ⟨trivial, fun found s'' hsame => ⟨trivial, ?_⟩⟩
  cases hsame
  dsimp only
  split
  · exact hrest
  · refine ⟨trivial, fun removed s'' hsame => ⟨trivial, ?_⟩⟩
    cases hsame
    cases removed with
    | ok _ => exact hrest
    | error e => exact hrest

end SQLiteDatabase

namespace DBMigrationRepository

open SQLite SQLiteState SQLiteDatabase

variable {s : SQLiteState} {db : ℕ} {ids : List ℕ} {patience : ℕ}

theorem command_proper (sql : String) (bindings : List SQLBindable) (s : SQLiteState)
    (h : s.Connected db) : Ends (command patience db sql bindings) s (SQLiteState.Connected db) :=
  Ends.bind (SQLiteConnection.execute_proper h sql bindings [] _) fun _ _ h => h

/-- The connection is closed whether the transaction is committed, rolled back, or could
not be rolled back. -/
theorem executeAllInTransaction_proper (h : s.AtRest)
    (closure : List (String × List SQLBindable)) :
    Ends (executeAllInTransaction patience closure) s AtRest := by
  apply Dialogue.Safe.bind
  refine (connection_proper h).mono (fun conn s' hworking => ?_) fun _ _ h => h
  refine Ends.deferring ?_ tryClose_proper
  refine Ends.bind (command_proper "BEGIN;" [] s' ⟨[], hworking⟩) fun _ s'' hbegun => ?_
  refine Ends.orElse (Ends.bind ?_ fun _ => command_proper "COMMIT;" []) fun e s'' hfailed => ?_
  · exact Dialogue.Safe.each hbegun fun entry _ => command_proper entry.1 entry.2
  · refine Ends.bind ?_ fun _ _ h => h
    exact Ends.orElse (command_proper "ROLLBACK;" [] s'' hfailed) fun _ _ h => h

end DBMigrationRepository

/-! ## Whole runs -/

namespace SQLiteDatabase

open SQLite SQLiteState

/-- The calls of the database and of the migrations that open and close connections. -/
inductive Starts : SQLite Unit → Prop
  | execute {T : Type} (patience : ℕ) (sql : String) (bindings : List SQLBindable)
      (dict : List (String × SQLBindable)) (resultMap : ResultMap T) :
      Starts (execute patience sql bindings dict resultMap >>= fun _ => .pure ())
  | executeAllInTransaction (patience : ℕ) (closure : List (String × List SQLBindable)) :
      Starts (DBMigrationRepository.executeAllInTransaction patience closure)
  | destroy (patience : ℕ) : Starts (destroy patience)

/-- One call after the other; the process may be killed and launched again at any time. -/
def service : Service SQLiteCall SQLiteCall.Answer SQLiteState SQLiteError where
  partner := library
  starts _ p := Starts p
  cuts _ s' := s' = launched

theorem atRest_launched : launched.AtRest :=
  ⟨rfl, fun d hd => (by cases hd), rfl, rfl, fun d hd => (by cases hd)⟩

theorem starts_proper {p : SQLite Unit} {s : SQLiteState} (hp : Starts p) (h : s.AtRest) :
    SQLite.Ends p s AtRest := by
  cases hp with
  | execute patience sql bindings dict resultMap =>
      exact Ends.bind (execute_proper h sql bindings dict resultMap) fun _ _ h => h
  | executeAllInTransaction patience closure =>
      exact DBMigrationRepository.executeAllInTransaction_proper h closure
  | destroy patience => exact destroy_proper h

/-- In every run of any calls of the database, whatever the library answers and wherever a
call throws: each message is in turn, so that no handle is used after its end and no
connection is closed before its statements are finalized, and between two calls no
statement is left, and no connection is open but those that came with a failure to open. -/
theorem atRest_of_runs {c : Option (SQLite Unit) × SQLiteState}
    (hruns : service.Runs (none, launched) c) :
    (c.1 = none → c.2.AtRest) ∧
      ∀ m next, c.1 = some (.say m next) → c.2.InTurn m := by
  have hstarts : ∀ s p, service.starts s p → s.AtRest → True ∧ SQLite.Ends p s AtRest :=
    fun s p hp hs => ⟨trivial, starts_proper hp hs⟩
  have hcuts : ∀ s s', service.cuts s s' → s.AtRest ∨ True → s'.AtRest :=
    fun s s' (hcut : s' = launched) _ => hcut ▸ atRest_launched
  obtain ⟨hrest, hsafe⟩ := Service.rest_of_runs hstarts hcuts hruns atRest_launched
  exact ⟨hrest, fun m next hp => (hsafe _ hp).2.1⟩

section Example

variable (s : SQLiteState) (db : ℕ)

theorem answers_open (status : SQLiteStatus) :
    service.partner.answers s .open (status, some s.next) { s with
      openDbs := insert s.next s.openDbs
      dropped := if status = .ok then s.dropped else insert s.next s.dropped
      next := s.next + 1 } := by
  simp [service, library, Answers]

theorem answers_prepare (sql : String) :
    service.partner.answers s (.prepare db sql) (.ok, some s.next)
      { s with stmts := insert (s.next, db) s.stmts, next := s.next + 1 } := by
  simp [service, library, Answers]

theorem answers_close : service.partner.answers s (.close db) SQLiteStatus.ok
    { s with openDbs := s.openDbs.erase db } := by
  simp [service, library, Answers]

/-- First the database cannot be opened, and a handle comes with the failure; then a
statement without results and without parameters is executed. -/
theorem executed_atRest : ∃ s, service.Runs (none, launched) (none, s) ∧ s.openDbs = {0} ∧
    s.closed = {1} ∧ s.next = 3 ∧ s.AtRest := by
  have hstart : service.Runs (none, launched) (_, _) :=
    .single (.start (.execute 1 "VACUUM;" [] [] (⟨[], fun _ => .ok none⟩ : ResultMap Unit)))
  have hfound := hstart.tail (.say (a := true) rfl)
  have hsupported := hfound.tail (.say (a := true) rfl)
  have hfailed := hsupported.tail (.say (answers_open _ (.other 14)))
  have hdropped := hfailed.tail .failed
  have hstart' := hdropped.tail
    (.start (.execute 1 "VACUUM;" [] [] (⟨[], fun _ => .ok none⟩ : ResultMap Unit)))
  have hfound' := hstart'.tail (.say (a := true) rfl)
  have hsupported' := hfound'.tail (.say (a := true) rfl)
  have hopened := hsupported'.tail (.say (answers_open _ .ok))
  have happended := hopened.tail (.say (a := ()) rfl)
  have hquestion := happended.tail (.say (a := false) ⟨rfl, rfl⟩)
  have hprepared := hquestion.tail (.say (answers_prepare _ 1 _))
  have hentered := hprepared.tail (.say (a := ()) rfl)
  have hstepped := hentered.tail (.say (a := SQLiteStatus.done) rfl)
  have hquestion' := hstepped.tail (.say (a := false) ⟨rfl, rfl⟩)
  have hstatements := hquestion'.tail (.say (a := [2]) ⟨rfl, rfl⟩)
  have hfinalized := hstatements.tail (.say (a := SQLiteStatus.ok) rfl)
  have hclosed := hfinalized.tail (.say (answers_close _ 1))
  have hset := hclosed.tail (.say (a := ()) rfl)
  have hremoved := hset.tail (.say (a := ()) rfl)
  have hended := hremoved.tail .ended
  exact ⟨_, hended, rfl, rfl, rfl, (atRest_of_runs hended).1 rfl⟩

end Example

end SQLiteDatabase

end SafeWallet
