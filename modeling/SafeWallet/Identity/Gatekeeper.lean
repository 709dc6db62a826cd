/-
# The gatekeeper

Passwords are tried against the stored user only while the gatekeeper considers access
possible. It counts the failures since the last success and remembers when the last one
happened; from the maximum on, the next try has to wait for the block duration. The
counter is never lowered by waiting, so every later failure starts the block anew.

The gatekeeper is stored after each change, and its moments are not read back quite as
they were. What is looked up in the user repository is kept in a record that no part of
the program reads.
-/

import SafeWallet.Base.Table
import SafeWallet.Base.Trapping
import SafeWallet.Identity.StoredMoments
import Mathlib.Algebra.Order.Field.Rat
import Mathlib.Data.List.Induction
import Mathlib.Tactic.Linarith

namespace SafeWallet

abbrev SessionID := String

abbrev UserID := String

/-! ## The entities -/

/-- `AuthenticationPolicy`, as its initialiser accepts it. -/
structure AuthenticationPolicy where
  sessionDuration : TimeInterval
  maxFailedAttempts : ℕ
  blockDuration : TimeInterval
  sessionDuration_pos : 0 < sessionDuration
  maxFailedAttempts_pos : 0 < maxFailedAttempts
  blockDuration_nonneg : 0 ≤ blockDuration

/-- What the gatekeeper and its session throw. -/
inductive AccessError
  | accessBlocked
  | invalidDuration
  | sessionWasActiveAlready
  | sessionIsNotActive
  | sessionWasFinishedAlready
  deriving DecidableEq, Repr

/-- `Session`. -/
structure Session where
  id : SessionID
  duration : TimeInterval
  startedAt : Option TimeInterval
  endedAt : Option TimeInterval
  updatedAt : Option TimeInterval
  deriving DecidableEq, Repr

namespace Session

/-- `Session(id:durationInSeconds:)`. -/
def make (id : SessionID) (durationInSeconds : TimeInterval) : Except AccessError Session :=
  if 0 < durationInSeconds then .ok ⟨id, durationInSeconds, none, none, none⟩
  else .error .invalidDuration

/-- `isActiveAt(_:)`. -/
def isActiveAt (session : Session) (time : TimeInterval) : Bool :=
  match session.endedAt, session.startedAt with
  | none, some startTime =>
    startTime ≤ time ∧ time ≤ session.updatedAt.getD startTime + session.duration
  | _, _ => false

/-- `start(_:)`. -/
def start (session : Session) (time : TimeInterval) : Except AccessError Session :=
  if session.endedAt.isSome then .error .sessionWasFinishedAlready
  else if session.isActiveAt time then .error .sessionWasActiveAlready
  else .ok { session with startedAt := some time }

end Session

/-- `Gatekeeper`. -/
structure Gatekeeper where
  policy : AuthenticationPolicy
  session : Option Session
  failedAttemptCount : ℕ
  accessDeniedAt : Option TimeInterval

namespace Gatekeeper

/-- `Gatekeeper(id:policy:)`. -/
def new (policy : AuthenticationPolicy) : Gatekeeper := ⟨policy, none, 0, none⟩

/-- `isAccessPossible(at:)`. -/
def isAccessPossible (gatekeeper : Gatekeeper) (time : TimeInterval) : Bool :=
  match gatekeeper.accessDeniedAt with
  | none => true
  | some deniedTime =>
    let blockLiftTime := deniedTime + gatekeeper.policy.blockDuration
    gatekeeper.failedAttemptCount < gatekeeper.policy.maxFailedAttempts ∨ blockLiftTime ≤ time

/-- `allowAccess(at:)`, with the identifier drawn for the session. -/
def allowAccess (gatekeeper : Gatekeeper) (sessionID : SessionID) (time : TimeInterval) :
    Except AccessError (SessionID × Gatekeeper) := do
  if gatekeeper.isAccessPossible time then
    let session ← Session.make sessionID gatekeeper.policy.sessionDuration
    let session ← session.start time
    return (session.id, { gatekeeper with
      session := some session, failedAttemptCount := 0, accessDeniedAt := none })
  else
    throw .accessBlocked

/-- `denyAccess(at:)`. -/
def denyAccess (gatekeeper : Gatekeeper) (time : TimeInterval) : Gatekeeper := { gatekeeper with
  session := none
  failedAttemptCount := gatekeeper.failedAttemptCount + 1
  accessDeniedAt := some time }

/-- The gatekeeper with a session that starts now. -/
def started (gatekeeper : Gatekeeper) (sessionID : SessionID) (time : TimeInterval) : Gatekeeper :=
  { gatekeeper with
    session := some ⟨sessionID, gatekeeper.policy.sessionDuration, some time, none, none⟩
    failedAttemptCount := 0
    accessDeniedAt := none }

/-- A possible access starts a session. -/
theorem allowAccess_eq (gatekeeper : Gatekeeper) (sessionID : SessionID) {time : TimeInterval}
    (h : gatekeeper.isAccessPossible time = true) :
    gatekeeper.allowAccess sessionID time = .ok (sessionID, gatekeeper.started sessionID time) := by
  simp [allowAccess, h, Session.make, gatekeeper.policy.sessionDuration_pos, Session.start,
    Session.isActiveAt]
  rfl

/-- The gatekeeper as it is read back from `DBSingleGatekeeperRepository` after it was saved. -/
def saved (column : TextColumn) (gatekeeper : Gatekeeper) : Gatekeeper := { gatekeeper with
  session := gatekeeper.session.map fun session => { session with
    startedAt := session.startedAt.map column.stored
    endedAt := session.endedAt.map column.stored
    updatedAt := session.updatedAt.map column.stored }
  accessDeniedAt := gatekeeper.accessDeniedAt.map column.stored }

@[simp]
theorem saved_policy (column : TextColumn) (gatekeeper : Gatekeeper) :
    (gatekeeper.saved column).policy = gatekeeper.policy := rfl

@[simp]
theorem saved_failedAttemptCount (column : TextColumn) (gatekeeper : Gatekeeper) :
    (gatekeeper.saved column).failedAttemptCount = gatekeeper.failedAttemptCount := rfl

@[simp]
theorem saved_accessDeniedAt (column : TextColumn) (gatekeeper : Gatekeeper) :
    (gatekeeper.saved column).accessDeniedAt = gatekeeper.accessDeniedAt.map column.stored := rfl

end Gatekeeper

/-- `User`. The password is stored encrypted. -/
structure User where
  id : UserID
  password : String
  sessionID : Option SessionID
  deriving DecidableEq, Repr

/-- A password that was looked up: when, which one, and whether a user has it. -/
structure Evaluation where
  time : TimeInterval
  password : String
  succeeded : Bool
  deriving DecidableEq, Repr

/-- The repositories of the identity service, the gatekeeper as it is read back, and the record
of the look-ups. -/
structure IdentityStore where
  gatekeeper : Option Gatekeeper
  users : Table User.id
  evaluations : List Evaluation

/-- A call of `authenticateUser(password:at:)`, with the session identifier it would draw. -/
structure Attempt where
  password : String
  time : TimeInterval
  sessionID : SessionID
  deriving DecidableEq, Repr

namespace IdentityService

variable (column : TextColumn) (encrypted : String → String)

/-- `user(encryptedPassword:)` for a password, recorded. -/
def evaluate (attempt : Attempt) (store : IdentityStore) : Option User × IdentityStore :=
  let user := store.users.rows.find? fun user => user.password = encrypted attempt.password
  (user, { store with
    evaluations := store.evaluations ++ [⟨attempt.time, attempt.password, user.isSome⟩] })

/-- `authenticate(at:_:)`. A look-up that is cancelled, as biometry can be, is `none`. -/
def authenticate (attempt : Attempt)
    (authenticate : IdentityStore → Option (Option User) × IdentityStore)
    (store : IdentityStore) : Trapping (Except AccessError (Option UserID) × IdentityStore) := do
  let gatekeeper ← Trapping.unwrap store.gatekeeper
  if gatekeeper.isAccessPossible attempt.time then
    match authenticate store with
    | (none, store) => return (.ok none, store)
    | (some none, store) =>
      return (.ok none, { store with gatekeeper := some ((gatekeeper.denyAccess attempt.time).saved column) })
    | (some (some user), store) =>
      match gatekeeper.allowAccess attempt.sessionID attempt.time with
      | .error error => return (.error error, store)
      | .ok (session, gatekeeper) =>
        return (.ok (some user.id), { store with
          gatekeeper := some (gatekeeper.saved column)
          users := store.users.save { user with sessionID := some session } })
  else
    return (.ok none, store)

/-- `authenticateUser(password:at:)`. -/
def authenticateUser (attempt : Attempt) :
    IdentityStore → Trapping (Except AccessError (Option UserID) × IdentityStore) :=
  authenticate column attempt fun store =>
    let (user, store) := evaluate encrypted attempt store
    (some user, store)

/-- Attempts one after the other. -/
def authenticateAll : List Attempt → IdentityStore → Trapping IdentityStore
  | [], store => return store
  | attempt :: rest, store => do
    let (_, store) ← authenticateUser column encrypted attempt store
    authenticateAll rest store

end IdentityService

/-! ## Records of look-ups -/

namespace Evaluation

/-- How many look-ups failed since the last one that succeeded. -/
def failures (evaluations : List Evaluation) : ℕ :=
  (evaluations.reverse.takeWhile fun evaluation => !evaluation.succeeded).length

/-- After the given number of failures every look-up waits for the duration after the moment of
the last one, as it was stored. -/
def Spaced (column : TextColumn) (policy : AuthenticationPolicy)
    (evaluations : List Evaluation) : Prop :=
  ∀ front previous next back, evaluations = front ++ previous :: next :: back →
    policy.maxFailedAttempts ≤ failures (front ++ [previous]) →
      column.stored previous.time + policy.blockDuration ≤ next.time

theorem failures_append_singleton (evaluations : List Evaluation) (last : Evaluation) :
    failures (evaluations ++ [last]) =
      if last.succeeded then 0 else failures evaluations + 1 := by
  cases hlast : last.succeeded with
  | true => simp [failures, hlast]
  | false => simp [failures, hlast]

/-- A stretch of failures adds to those before it. -/
theorem failures_append_of_failed (front stretch : List Evaluation)
    (h : ∀ evaluation ∈ stretch, evaluation.succeeded = false) :
    failures (front ++ stretch) = failures front + stretch.length := by
  induction stretch using List.reverseRecOn with
  | nil => simp
  | append_singleton stretch last ih =>
      rw [← List.append_assoc, failures_append_singleton, h last (by simp),
        ih fun evaluation hmem => h evaluation (by simp [hmem])]
      simp [Nat.add_assoc]

variable {column : TextColumn} {policy : AuthenticationPolicy} {evaluations : List Evaluation}

/-- One more look-up only has to keep its distance to the last one. -/
theorem Spaced.append_singleton (h : Spaced column policy evaluations) {last : Evaluation}
    (hlast : ∀ front previous, evaluations = front ++ [previous] →
      policy.maxFailedAttempts ≤ failures evaluations →
        column.stored previous.time + policy.blockDuration ≤ last.time) :
    Spaced column policy (evaluations ++ [last]) := by
  intro front previous next back heq hmax
  cases back using List.reverseRecOn with
  | nil =>
      have hsplit : evaluations ++ [last] = (front ++ [previous]) ++ [next] := by simp [heq]
      obtain ⟨rfl, hnext⟩ := List.append_inj' hsplit rfl
      cases hnext
      exact hlast front previous rfl hmax
  | append_singleton back final =>
      have hsplit : evaluations ++ [last] = (front ++ previous :: next :: back) ++ [final] := by
        simp [heq]
      obtain ⟨hevaluations, -⟩ := List.append_inj' hsplit rfl
      exact h front previous next back hevaluations hmax

/-- The distance of two look-ups in exact numbers. -/
theorem Spaced.distance (h : Spaced column policy evaluations) {front back : List Evaluation}
    {previous next : Evaluation} (heq : evaluations = front ++ previous :: next :: back)
    (hmax : policy.maxFailedAttempts ≤ failures (front ++ [previous])) :
    policy.blockDuration.value - TextColumn.slack previous.time policy.blockDuration ≤
      next.time.value - previous.time.value := by
  have hnext := DigitFormat.Number.le_iff.mp (h front previous next back heq hmax)
  have hnear := (abs_le.mp (column.abs_stored_add_sub_le previous.time policy.blockDuration)).1
  linarith

/-- Look-ups after the block that all fail, but for the last one, take their time. -/
theorem Spaced.duration (h : Spaced column policy evaluations)
    {front back middle : List Evaluation} {first last : Evaluation} {slack : ℚ}
    (heq : evaluations = front ++ (first :: middle ++ [last]) ++ back)
    (hblock : policy.maxFailedAttempts ≤ failures front)
    (hfail : ∀ evaluation ∈ first :: middle, evaluation.succeeded = false)
    (hslack : ∀ evaluation ∈ first :: middle,
      TextColumn.slack evaluation.time policy.blockDuration ≤ slack) :
    (middle.length + 1) * (policy.blockDuration.value - slack) ≤
      last.time.value - first.time.value := by
  induction middle using List.reverseRecOn generalizing last back with
  | nil =>
      have hstep := @Spaced.distance _ _ _ h front back first last (by simp [heq])
      rw [failures_append_singleton, hfail first (by simp)] at hstep
      have hdistance := hstep (by simp; omega)
      have hfirst := hslack first List.mem_cons_self
      simp
      linarith
  | append_singleton middle previous ih =>
      have hprevious : evaluations =
          front ++ (first :: middle ++ [previous]) ++ (last :: back) := by simp [heq]
      have hmem : ∀ evaluation ∈ first :: middle, evaluation ∈ first :: (middle ++ [previous]) := by
        intro evaluation hmem
        rcases List.mem_cons.mp hmem with rfl | hmem
        · exact List.mem_cons_self
        · simp [hmem]
      have hduration := ih hprevious (fun evaluation h => hfail evaluation (hmem evaluation h))
        fun evaluation h => hslack evaluation (hmem evaluation h)
      have hstep := @Spaced.distance _ _ _ h (front ++ first :: middle) back previous last
        (by simp [heq])
      rw [List.append_assoc, failures_append_of_failed _ _ (by simpa using hfail)] at hstep
      have hdistance := hstep (by omega)
      have hlast := hslack previous (by simp)
      rw [List.length_append, List.length_singleton]
      push_cast
      linarith

/-- In a window after the block at most one look-up fits for each duration, and one more. -/
theorem Spaced.window (h : Spaced column policy evaluations)
    {front tried back : List Evaluation} {start length slack : ℚ}
    (heq : evaluations = front ++ tried ++ back)
    (hblock : policy.maxFailedAttempts ≤ failures front)
    (hfail : ∀ evaluation ∈ tried.dropLast, evaluation.succeeded = false)
    (hwindow : ∀ evaluation ∈ tried,
      start ≤ evaluation.time.value ∧ evaluation.time.value ≤ start + length)
    (hslack : ∀ evaluation ∈ tried,
      TextColumn.slack evaluation.time policy.blockDuration ≤ slack)
    (hlength : 0 ≤ length) (hduration : slack < policy.blockDuration.value) :
    (tried.length : ℚ) ≤ 1 + length / (policy.blockDuration.value - slack) := by
  have hpos : 0 < policy.blockDuration.value - slack := by linarith
  have hquotient : 0 ≤ length / (policy.blockDuration.value - slack) :=
    div_nonneg hlength hpos.le
  cases tried with
  | nil =>
      simp
      linarith
  | cons first rest =>
      cases rest using List.reverseRecOn with
      | nil =>
          simp
          linarith
      | append_singleton middle last =>
          have hdrop : (first :: (middle ++ [last])).dropLast = first :: middle := by
            rw [← List.cons_append, List.dropLast_concat]
          rw [hdrop] at hfail
          have hspan := h.duration heq hblock hfail fun evaluation hmem => hslack evaluation (by
            rw [← List.cons_append]
            exact List.mem_append_left _ hmem)
          have hfirst := hwindow first (by simp)
          have hlast := hwindow last (by simp)
          have hcount : ((middle.length : ℚ) + 1) ≤
              length / (policy.blockDuration.value - slack) := by
            rw [le_div_iff₀ hpos]
            linarith
          simp only [List.length_cons, List.length_append, List.length_nil]
          push_cast
          linarith

end Evaluation

/-! ## Runs -/

namespace IdentityService

open Evaluation

/-- The gatekeeper's counter is that of the record, and its moment what is stored of it. -/
structure Faithful (column : TextColumn) (policy : AuthenticationPolicy) (store : IdentityStore)
    (gatekeeper : Gatekeeper) : Prop where
  found : store.gatekeeper = some gatekeeper
  policy_eq : gatekeeper.policy = policy
  count : gatekeeper.failedAttemptCount = failures store.evaluations
  denied : ∀ front previous, store.evaluations = front ++ [previous] →
    0 < failures store.evaluations → gatekeeper.accessDeniedAt = some (column.stored previous.time)
  spaced : Spaced column policy store.evaluations

variable {column : TextColumn} {encrypted : String → String} {policy : AuthenticationPolicy} {store : IdentityStore}
  {gatekeeper : Gatekeeper} {attempt : Attempt}

/-- While access is not possible nothing is looked up and nothing changes. -/
theorem authenticateUser_of_blocked (hfound : store.gatekeeper = some gatekeeper)
    (hblocked : gatekeeper.isAccessPossible attempt.time = false) :
    authenticateUser column encrypted attempt store = .ok (.ok none, store) := by
  simp [authenticateUser, authenticate, hfound, hblocked]

/-- A wrong password is looked up, counted and starts the block. -/
theorem authenticateUser_of_wrong (hfound : store.gatekeeper = some gatekeeper)
    (hpossible : gatekeeper.isAccessPossible attempt.time = true)
    (huser : (store.users.rows.find? fun user =>
      user.password = encrypted attempt.password) = none) :
    authenticateUser column encrypted attempt store = .ok (.ok none, { store with
      gatekeeper := some ((gatekeeper.denyAccess attempt.time).saved column)
      evaluations := store.evaluations ++ [⟨attempt.time, attempt.password, false⟩] }) := by
  simp [authenticateUser, authenticate, hfound, hpossible, evaluate, huser]

/-- A right password is looked up and clears the counter. -/
theorem authenticateUser_of_right (hfound : store.gatekeeper = some gatekeeper)
    (hpossible : gatekeeper.isAccessPossible attempt.time = true) {user : User}
    (huser : (store.users.rows.find? fun user =>
      user.password = encrypted attempt.password) = some user) :
    ∃ session, authenticateUser column encrypted attempt store = .ok (.ok (some user.id), { store with
      gatekeeper := some { gatekeeper with
        session := some session, failedAttemptCount := 0, accessDeniedAt := none }
      users := store.users.save { user with sessionID := some attempt.sessionID }
      evaluations := store.evaluations ++ [⟨attempt.time, attempt.password, true⟩] }) := by
  refine ⟨⟨attempt.sessionID, gatekeeper.policy.sessionDuration, some (column.stored attempt.time),
    none, none⟩, ?_⟩
  simp [authenticateUser, authenticate, hfound, hpossible, evaluate, huser,
    gatekeeper.allowAccess_eq attempt.sessionID hpossible]
  rfl

/-- A possible access keeps the distance to the last look-up once the block is on. -/
theorem Faithful.distance (h : Faithful column policy store gatekeeper)
    (hpossible : gatekeeper.isAccessPossible attempt.time = true) {front : List Evaluation}
    {previous : Evaluation} (hlast : store.evaluations = front ++ [previous])
    (hmax : policy.maxFailedAttempts ≤ failures store.evaluations) :
    column.stored previous.time + policy.blockDuration ≤ attempt.time := by
  have hdenied := h.denied front previous hlast (policy.maxFailedAttempts_pos.trans_le hmax)
  simp only [Gatekeeper.isAccessPossible, hdenied, decide_eq_true_eq, h.policy_eq, h.count]
    at hpossible
  rcases hpossible with hmore | hexpired
  · exact absurd hmax (Nat.not_le.mpr hmore)
  · exact hexpired

/-- One attempt keeps the gatekeeper faithful to the record. -/
theorem authenticateUser_faithful (encrypted : String → String)
    (h : Faithful column policy store gatekeeper) (attempt : Attempt) :
    ∃ result store' gatekeeper', authenticateUser column encrypted attempt store = .ok (result, store') ∧
      Faithful column policy store' gatekeeper' := by
  cases hpossible : gatekeeper.isAccessPossible attempt.time with
  | false => exact ⟨_, store, gatekeeper, authenticateUser_of_blocked h.found hpossible, h⟩
  | true =>
      have hspaced (succeeded : Bool) :
          Spaced column policy (store.evaluations ++ [⟨attempt.time, attempt.password, succeeded⟩]) :=
        h.spaced.append_singleton fun front previous hlast hmax =>
          h.distance hpossible hlast hmax
      cases huser : store.users.rows.find? fun user =>
          user.password = encrypted attempt.password with
      | none =>
          refine ⟨_, _, _, authenticateUser_of_wrong h.found hpossible huser, rfl, h.policy_eq,
            ?_, ?_, hspaced false⟩
          · simp [Gatekeeper.denyAccess, failures_append_singleton, h.count]
          · intro front previous hlast _
            obtain ⟨-, hprevious⟩ := List.append_inj' hlast rfl
            cases hprevious
            rfl
      | some user =>
          obtain ⟨session, heq⟩ := authenticateUser_of_right h.found hpossible huser
          refine ⟨_, _, _, heq, rfl, h.policy_eq, ?_, ?_, hspaced true⟩
          · simp [failures_append_singleton]
          · simp [failures_append_singleton]

/-- So does a run. -/
theorem authenticateAll_faithful (attempts : List Attempt)
    (h : Faithful column policy store gatekeeper) : ∃ store' gatekeeper',
      authenticateAll column encrypted attempts store = .ok store' ∧
        Faithful column policy store' gatekeeper' := by
  induction attempts generalizing store gatekeeper with
  | nil => exact ⟨store, gatekeeper, rfl, h⟩
  | cons attempt rest ih =>
      obtain ⟨result, store', gatekeeper', heq, h'⟩ :=
        authenticateUser_faithful encrypted h attempt
      obtain ⟨final, gatekeeper'', hrest, hfinal⟩ := ih h'
      exact ⟨final, gatekeeper'', by simp [authenticateAll, heq, hrest], hfinal⟩

/-- A new gatekeeper has an empty record. -/
theorem faithful_new (column : TextColumn) (policy : AuthenticationPolicy)
    (users : Table User.id) :
    Faithful column policy ⟨some (Gatekeeper.new policy), users, []⟩ (Gatekeeper.new policy) where
  found := rfl
  policy_eq := rfl
  count := rfl
  denied front previous h := by simp at h
  spaced front previous next back h := by simp at h

/-- Trying passwords is slow. An attempt while access is not possible looks nothing up and
changes nothing. In every run from a new gatekeeper, each look-up that comes after the
maximal number of failures waits for the block duration after what is stored of the last one,
which is the block duration up to some slack. So a window of time after the block has room for
one look-up, and one more for each duration, less the slack, that it lasts. -/
theorem evaluations_bounded (column : TextColumn) (encrypted : String → String)
    (policy : AuthenticationPolicy) (users : Table User.id) (attempts : List Attempt) :
    (∀ store gatekeeper attempt, store.gatekeeper = some gatekeeper →
      gatekeeper.isAccessPossible attempt.time = false →
        authenticateUser column encrypted attempt store = .ok (.ok none, store)) ∧
    ∃ store, authenticateAll column encrypted attempts
        ⟨some (Gatekeeper.new policy), users, []⟩ = .ok store ∧
      (∀ front previous next back, store.evaluations = front ++ previous :: next :: back →
        policy.maxFailedAttempts ≤ failures (front ++ [previous]) →
          column.stored previous.time + policy.blockDuration ≤ next.time ∧
          policy.blockDuration.value - TextColumn.slack previous.time policy.blockDuration ≤
            next.time.value - previous.time.value) ∧
      ∀ front tried back, ∀ start length slack : ℚ, store.evaluations = front ++ tried ++ back →
        policy.maxFailedAttempts ≤ failures front →
        (∀ evaluation ∈ tried.dropLast, evaluation.succeeded = false) →
        (∀ evaluation ∈ tried,
          start ≤ evaluation.time.value ∧ evaluation.time.value ≤ start + length) →
        (∀ evaluation ∈ tried, TextColumn.slack evaluation.time policy.blockDuration ≤ slack) →
        0 ≤ length → slack < policy.blockDuration.value →
          (tried.length : ℚ) ≤ 1 + length / (policy.blockDuration.value - slack) := by
  refine ⟨fun store gatekeeper attempt hfound hblocked =>
    authenticateUser_of_blocked hfound hblocked, ?_⟩
  obtain ⟨store, gatekeeper, hrun, hfaithful⟩ :=
    authenticateAll_faithful attempts (faithful_new column policy users)
  refine ⟨store, hrun, fun front previous next back heq hmax => ?_, fun front tried back start
    length slack heq hblock hfail hwindow hslack hlength hduration => ?_⟩
  · exact ⟨hfaithful.spaced front previous next back heq hmax, hfaithful.spaced.distance heq hmax⟩
  · exact hfaithful.spaced.window heq hblock hfail hwindow hslack hlength hduration

/-- One failure is allowed, then ten seconds of waiting. -/
def strictPolicy : AuthenticationPolicy :=
  ⟨300, 1, 10, by decide +kernel, by norm_num, by decide +kernel⟩

/-- Four guesses, the second of them during the block. -/
def guesses : List Attempt :=
  [⟨"first", 0, "A"⟩, ⟨"second", 5, "B"⟩, ⟨"third", 10, "C"⟩, ⟨"fourth", 25, "D"⟩]

/-- The guess during the block is not looked up; the two after it have a window of fifteen
seconds for themselves. -/
theorem evaluations_bounded_guesses : ∃ store,
    authenticateAll .printed id guesses ⟨some (Gatekeeper.new strictPolicy), Table.empty, []⟩ =
      .ok store ∧
      store.evaluations = [⟨0, "first", false⟩, ⟨10, "third", false⟩, ⟨25, "fourth", false⟩] ∧
      (([⟨10, "third", false⟩, ⟨25, "fourth", false⟩] : List Evaluation).length : ℚ) ≤
        1 + 15 / (10 - 1 / 10 ^ 12) := by
  obtain ⟨-, store, hrun, -, hwindow⟩ :=
    evaluations_bounded .printed id strictPolicy Table.empty guesses
  have hevaluations :
      (authenticateAll .printed id guesses
        ⟨some (Gatekeeper.new strictPolicy), Table.empty, []⟩).map IdentityStore.evaluations =
        .ok [⟨0, "first", false⟩, ⟨10, "third", false⟩, ⟨25, "fourth", false⟩] := by
    decide +kernel
  rw [hrun] at hevaluations
  have hrecord : store.evaluations =
      [⟨0, "first", false⟩, ⟨10, "third", false⟩, ⟨25, "fourth", false⟩] :=
    Except.ok.inj hevaluations
  have hten : strictPolicy.blockDuration.value = 10 := by decide +kernel
  have hcount := hwindow [⟨0, "first", false⟩] [⟨10, "third", false⟩, ⟨25, "fourth", false⟩] []
    10 15 (1 / 10 ^ 12) hrecord (by decide +kernel) (by decide) (by decide +kernel)
    (by decide +kernel) (by norm_num) (by rw [hten]; norm_num)
  rw [hten] at hcount
  exact ⟨store, hrun, hrecord, hcount⟩

/-- A moment that loses its last digits when it is stored: half a microsecond after a full
second. -/
def unevenMoment : TimeInterval := .ofRat binary64 (600000000 + 1 / 2 ^ 21)

theorem fifteen_seconds_nonneg : (0 : TimeInterval) ≤ 15 := by decide +kernel

/-- One failure is allowed, then fifteen seconds of waiting. -/
def quarterPolicy : AuthenticationPolicy :=
  ⟨300, 1, 15, by decide +kernel, by norm_num, fifteen_seconds_nonneg⟩

def earlyGuesses : List Attempt := [⟨"first", unevenMoment, "A"⟩, ⟨"second", 600000015, "B"⟩]

/-- A password is looked up fifteen seconds after what is stored of the denial, which is less
than fifteen seconds after the denial. -/
theorem unevenMoment_early :
    ¬ ∀ (column : TextColumn) (policy : AuthenticationPolicy) (attempts : List Attempt)
        (store : IdentityStore), (attempts.map Attempt.time).Pairwise (· ≤ ·) →
      authenticateAll column id attempts ⟨some (Gatekeeper.new policy), Table.empty, []⟩ =
        .ok store →
      ∀ front previous next back, store.evaluations = front ++ previous :: next :: back →
        policy.maxFailedAttempts ≤ failures (front ++ [previous]) →
          previous.time.value + policy.blockDuration.value ≤ next.time.value := by
  intro h
  obtain ⟨store, -, hrun, -⟩ := @authenticateAll_faithful _ id _ _ _ earlyGuesses
    (faithful_new .printed quarterPolicy Table.empty)
  have hevaluations :
      (authenticateAll .printed id earlyGuesses
        ⟨some (Gatekeeper.new quarterPolicy), Table.empty, []⟩).map IdentityStore.evaluations =
        .ok [⟨unevenMoment, "first", false⟩, ⟨600000015, "second", false⟩] := by
    decide +kernel
  rw [hrun] at hevaluations
  have hspaced := h .printed quarterPolicy earlyGuesses store (by decide +kernel) hrun [] _ _ [] (Except.ok.inj hevaluations)
    (by decide +kernel)
  revert hspaced
  decide +kernel

end IdentityService

end SafeWallet
