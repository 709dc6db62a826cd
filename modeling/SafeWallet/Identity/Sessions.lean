/-
# Sessions

An authenticated user stays authenticated while the session is used. The gatekeeper
keeps the session, the user only its identifier; a failure, a change of the policy and
a reset remove it, and a new success replaces it. What happened is kept in a history,
from which one can read why somebody is authenticated now. The next use is measured from
what is stored of the moment of the last one.

Policies and calls are those of the application service, which loads the gatekeeper,
changes it and saves it unless the change throws.
-/

import Mathlib.Data.List.Chain
import SafeWallet.Identity.Gatekeeper

namespace SafeWallet

/-! ## Using and changing access -/

/-- `Session.renew(_:)`. -/
def Session.renew (session : Session) (time : TimeInterval) : Except AccessError Session :=
  if session.isActiveAt time then .ok { session with updatedAt := some time }
  else .error .sessionIsNotActive

/-- `AuthenticationPolicy.Error`. -/
inductive PolicyError
  | sessionDurationMustBePositive
  | maxFailedAttemptsMustBePositive
  | blockDurationMustBeNonNegative
  deriving DecidableEq, Repr

/-- `AuthenticationPolicy(sessionDuration:maxFailedAttempts:blockDuration:)`. -/
def AuthenticationPolicy.make (sessionDuration : TimeInterval) (maxFailedAttempts : ℤ)
    (blockDuration : TimeInterval) : Except PolicyError AuthenticationPolicy :=
  if hsession : 0 < sessionDuration then
    if hattempts : 0 < maxFailedAttempts then
      if hblock : 0 ≤ blockDuration then
        .ok ⟨sessionDuration, maxFailedAttempts.toNat, blockDuration, hsession, by omega, hblock⟩
      else .error .blockDurationMustBeNonNegative
    else .error .maxFailedAttemptsMustBePositive
  else .error .sessionDurationMustBePositive

/-- A new value for one of the fields of the policy. -/
inductive PolicyChange
  | sessionDuration (newValue : TimeInterval)
  | maxFailedAttempts (newValue : ℤ)
  | blockDuration (newValue : TimeInterval)

/-- `withSessionDuration(_:)`, `withMaxFailedAttempts(_:)` and `withBlockDuration(_:)`. -/
def AuthenticationPolicy.changed (policy : AuthenticationPolicy) :
    PolicyChange → Except PolicyError AuthenticationPolicy
  | .sessionDuration newValue =>
    AuthenticationPolicy.make newValue policy.maxFailedAttempts policy.blockDuration
  | .maxFailedAttempts newValue =>
    AuthenticationPolicy.make policy.sessionDuration newValue policy.blockDuration
  | .blockDuration newValue =>
    AuthenticationPolicy.make policy.sessionDuration policy.maxFailedAttempts newValue

namespace Gatekeeper

variable (gatekeeper : Gatekeeper)

/-- `hasAccess(session:at:)`. -/
def hasAccess (id : SessionID) (time : TimeInterval) : Bool :=
  match gatekeeper.session with
  | none => false
  | some session => session.id = id ∧ session.isActiveAt time

/-- `useAccess(at:)`. Without a session nothing is renewed. -/
def useAccess (time : TimeInterval) : Except AccessError Gatekeeper := do
  if gatekeeper.isAccessPossible time then
    match gatekeeper.session with
    | none => return gatekeeper
    | some session =>
      let session ← session.renew time
      return { gatekeeper with session := some session }
  else
    throw .accessBlocked

/-- `reset()`. -/
def reset : Gatekeeper := { gatekeeper with
  session := none
  failedAttemptCount := 0
  accessDeniedAt := none }

/-- `changeSessionDuration(_:)`, `changeMaxFailedAttempts(_:)` and `changeBlockDuration(_:)`. Every
new policy resets the gatekeeper. -/
def changePolicy (change : PolicyChange) : Except PolicyError Gatekeeper := do
  let policy ← gatekeeper.policy.changed change
  return { gatekeeper with policy := policy }.reset

end Gatekeeper

/-- A new policy ends the session. -/
theorem Gatekeeper.session_of_changePolicy {gatekeeper gatekeeper' : Gatekeeper}
    {change : PolicyChange} (h : gatekeeper.changePolicy change = .ok gatekeeper') :
    gatekeeper'.session = none := by
  rw [Gatekeeper.changePolicy] at h
  cases hchanged : gatekeeper.policy.changed change with
  | ok policy =>
      rw [hchanged] at h
      cases h
      rfl
  | error error =>
      rw [hchanged] at h
      cases h

namespace IdentityService

/-- `SingleUserRepository.primaryUser()`. -/
def primaryUser (store : IdentityStore) : Option User := store.users.rows.head?

/-- `isUserAuthenticated(at:)`. -/
def isUserAuthenticated (store : IdentityStore) (time : TimeInterval) : Bool :=
  match store.gatekeeper, (primaryUser store).bind User.sessionID with
  | some gatekeeper, some sessionID => gatekeeper.hasAccess sessionID time
  | _, _ => false

/-- How the request for a fingerprint or a face ends. -/
inductive Biometry
  | recognised
  | refused
  | cancelled
  | failed
  deriving DecidableEq, Repr

/-- The user that biometry stands for. Nobody is looked up when it is cancelled or fails. -/
def Biometry.look (store : IdentityStore) : Biometry → Option (Option User) × IdentityStore
  | .recognised => (some (primaryUser store), store)
  | .refused => (some none, store)
  | .cancelled | .failed => (none, store)

/-- What an authentication throws. -/
inductive AuthenticationError
  | access (error : AccessError)
  | biometry
  deriving DecidableEq, Repr

/-- `authenticateUserBiometrically(at:)`. An error other than a cancellation is thrown on. -/
def authenticateUserBiometrically (column : TextColumn) (biometry : Biometry) (attempt : Attempt)
    (store : IdentityStore) :
    Trapping (Except AuthenticationError (Option UserID) × IdentityStore) := do
  let (result, store) ← authenticate column attempt (fun store => biometry.look store) store
  let gatekeeper ← Trapping.unwrap store.gatekeeper
  if biometry = .failed ∧ gatekeeper.isAccessPossible attempt.time then
    return (.error .biometry, store)
  else
    return (result.mapError .access, store)

end IdentityService

/-! ## Histories -/

/-- What happened to the access, and when. -/
inductive AccessEvent
  | authenticated (time : TimeInterval)
  | failed (time : TimeInterval)
  | used (time : TimeInterval)
  | policyChanged
  | reset
  deriving DecidableEq, Repr

/-- When it happened, where that is known. -/
def AccessEvent.time : AccessEvent → Option TimeInterval
  | .authenticated time | .failed time | .used time => some time
  | .policyChanged | .reset => none

/-- The calls that concern the access. -/
inductive AccessCall
  | authenticateUser (attempt : Attempt)
  | authenticateUserBiometrically (biometry : IdentityService.Biometry) (attempt : Attempt)
  | useAccess (time : TimeInterval)
  | changePolicy (change : PolicyChange)
  | reset

/-- When the call is made, where it says so. -/
def AccessCall.time : AccessCall → Option TimeInterval
  | .authenticateUser attempt | .authenticateUserBiometrically _ attempt => some attempt.time
  | .useAccess time => some time
  | .changePolicy _ | .reset => none

namespace IdentityService

variable (column : TextColumn) (encrypted : String → String)

/-- One call and what it adds to the history. An attempt that returns no user has failed, also
while access is blocked, unless it was cancelled. -/
def perform (store : IdentityStore) : AccessCall → Trapping (Option AccessEvent × IdentityStore)
  | .authenticateUser attempt => do
    let (result, store) ← authenticateUser column encrypted attempt store
    match result with
    | .ok (some _) => return (some (.authenticated attempt.time), store)
    | .ok none => return (some (.failed attempt.time), store)
    | .error _ => return (none, store)
  | .authenticateUserBiometrically biometry attempt => do
    let (result, store) ← authenticateUserBiometrically column biometry attempt store
    match result with
    | .ok (some _) => return (some (.authenticated attempt.time), store)
    | .ok none =>
      return (if biometry = .cancelled then none else some (.failed attempt.time), store)
    | .error _ => return (none, store)
  | .useAccess time => do
    let gatekeeper ← Trapping.unwrap store.gatekeeper
    match gatekeeper.useAccess time with
    | .ok gatekeeper =>
      return (some (.used time), { store with gatekeeper := some (gatekeeper.saved column) })
    | .error _ => return (none, store)
  | .changePolicy change =>
    match store.gatekeeper with
    | none => return (none, store)
    | some gatekeeper =>
      match gatekeeper.changePolicy change with
      | .ok gatekeeper =>
        return (some .policyChanged, { store with gatekeeper := some (gatekeeper.saved column) })
      | .error _ => return (none, store)
  | .reset =>
    return (some .reset, { store with
      gatekeeper := store.gatekeeper.map fun gatekeeper => gatekeeper.reset.saved column
      users := ((primaryUser store).map fun user => store.users.remove user.id).getD store.users })

/-- Calls one after the other. -/
def performAll : List AccessCall → IdentityStore → List AccessEvent →
    Trapping (IdentityStore × List AccessEvent)
  | [], store, history => return (store, history)
  | call :: rest, store, history => do
    let (event, store) ← perform column encrypted store call
    performAll rest store (history ++ event.toList)

/-- A use comes in time after what is stored of the moment before it. -/
def InTime (column : TextColumn) (duration first second : TimeInterval) : Prop :=
  second ≤ column.stored first + duration

/-- The session is the one of the last authentication in the history, and all that happened
since then are uses of it. Nobody was refused since then. -/
def Current (column : TextColumn) (history : List AccessEvent) (gatekeeper : Gatekeeper) : Prop :=
  ∀ session, gatekeeper.session = some session →
    gatekeeper.accessDeniedAt = none ∧
    ∃ before startTime readTime uses,
      history = before ++ .authenticated startTime :: uses.map .used ∧
      session.startedAt = some readTime ∧ session.endedAt = none ∧
      session.updatedAt = uses.getLast?.map column.stored ∧
      (uses = [] → readTime = column.stored startTime) ∧
      session.duration = gatekeeper.policy.sessionDuration ∧
      (startTime :: uses).IsChain (InTime column session.duration)

/-! ## What each call does to the session -/

section

variable {column : TextColumn} {encrypted : String → String} {store : IdentityStore}
  {gatekeeper : Gatekeeper} {attempt : Attempt} {history : List AccessEvent} {time : TimeInterval}

/-- How an authentication can end. -/
theorem authenticate_cases (attempt : Attempt) (hfound : store.gatekeeper = some gatekeeper)
    (look : IdentityStore → Option (Option User) × IdentityStore)
    (hlook : (look store).2.gatekeeper = store.gatekeeper) :
    ∃ result store' gatekeeper', authenticate column attempt look store = .ok (result, store') ∧
      store'.gatekeeper = some gatekeeper' ∧
      ((∃ user, result = .ok (some user) ∧ (look store).1 ≠ none ∧
          gatekeeper' = (gatekeeper.started attempt.sessionID attempt.time).saved column) ∨
        (result = .ok none ∧ (look store).1 = some none ∧
          gatekeeper' = (gatekeeper.denyAccess attempt.time).saved column) ∨
        (result = .ok none ∧ gatekeeper.isAccessPossible attempt.time = false ∧
          gatekeeper' = gatekeeper) ∨
        (result = .ok none ∧ gatekeeper.isAccessPossible attempt.time = true ∧
          (look store).1 = none ∧ gatekeeper' = gatekeeper)) := by
  cases hpossible : gatekeeper.isAccessPossible attempt.time with
  | false =>
      refine ⟨.ok none, store, gatekeeper, ?_, hfound, by simp⟩
      simp [authenticate, hfound, hpossible]
  | true =>
      cases hresult : look store with
      | mk found looked =>
          rw [hresult] at hlook
          cases found with
          | none =>
              refine ⟨.ok none, looked, gatekeeper, ?_, hlook.trans hfound, by simp⟩
              simp [authenticate, hfound, hpossible, hresult]
          | some found =>
              cases found with
              | none =>
                  refine ⟨.ok none, { looked with
                    gatekeeper := some ((gatekeeper.denyAccess attempt.time).saved column) },
                    (gatekeeper.denyAccess attempt.time).saved column, ?_, rfl, by simp⟩
                  simp [authenticate, hfound, hpossible, hresult]
              | some user =>
                  refine ⟨.ok (some user.id), { looked with
                    gatekeeper :=
                      some ((gatekeeper.started attempt.sessionID attempt.time).saved column)
                    users := looked.users.save { user with sessionID := some attempt.sessionID } },
                    (gatekeeper.started attempt.sessionID attempt.time).saved column, ?_, rfl, by simp⟩
                  simp [authenticate, hfound, hpossible, hresult,
                    gatekeeper.allowAccess_eq attempt.sessionID hpossible]

theorem current_of_none (h : gatekeeper.session = none) : Current column history gatekeeper := by
  intro session hsession
  rw [h] at hsession
  cases hsession

/-- While somebody has a session, access is possible. -/
theorem Current.session_of_blocked (h : Current column history gatekeeper)
    (hblocked : gatekeeper.isAccessPossible time = false) : gatekeeper.session = none := by
  cases hsession : gatekeeper.session with
  | none => rfl
  | some session =>
      rw [Gatekeeper.isAccessPossible, (h session hsession).1] at hblocked
      cases hblocked

theorem current_started (column : TextColumn) (history : List AccessEvent)
    (gatekeeper : Gatekeeper) (sessionID : SessionID) (time : TimeInterval) :
    Current column (history ++ [.authenticated time])
      ((gatekeeper.started sessionID time).saved column) := by
  intro session hsession
  cases Option.some.inj hsession
  exact ⟨rfl, history, time, column.stored time, [], rfl, rfl, rfl, rfl, fun _ => rfl, rfl,
    .singleton time⟩

/-- An active session was used recently enough. -/
theorem Session.isActiveAt_iff {session : Session} {startTime : TimeInterval}
    (hstart : session.startedAt = some startTime) (hend : session.endedAt = none) :
    session.isActiveAt time = true ↔
      startTime ≤ time ∧ time ≤ session.updatedAt.getD startTime + session.duration := by
  simp [Session.isActiveAt, hstart, hend]

/-- The last use is the start if there is no other. -/
theorem getD_stored {startTime readTime : TimeInterval} {uses : List TimeInterval}
    (hread : uses = [] → readTime = column.stored startTime) :
    (uses.getLast?.map column.stored).getD readTime =
      column.stored (uses.getLast?.getD startTime) := by
  cases hlast : uses.getLast? with
  | none => exact hread (List.getLast?_eq_none_iff.mp hlast)
  | some last => rfl

/-- One more use has to come in time after the last one. -/
theorem isChain_append_use {duration startTime : TimeInterval} {uses : List TimeInterval}
    (h : (startTime :: uses).IsChain (InTime column duration))
    (htime : InTime column duration (uses.getLast?.getD startTime) time) :
    (startTime :: (uses ++ [time])).IsChain (InTime column duration) := by
  rw [← List.cons_append, List.isChain_append]
  refine ⟨h, .singleton time, ?_⟩
  intro last hlast next hnext
  cases Option.some.inj hnext
  rw [List.getLast?_cons] at hlast
  rwa [Option.some.inj hlast] at htime

/-- A use renews the session if there is one. -/
theorem useAccess_cases {gatekeeper' : Gatekeeper} (h : gatekeeper.useAccess time = .ok gatekeeper') :
    (gatekeeper.session = none ∧ gatekeeper' = gatekeeper) ∨
      ∃ session, gatekeeper.session = some session ∧ session.isActiveAt time = true ∧
        gatekeeper' = { gatekeeper with session := some { session with updatedAt := some time } } := by
  cases hpossible : gatekeeper.isAccessPossible time with
  | false => simp [Gatekeeper.useAccess, hpossible] at h
  | true =>
      cases hsession : gatekeeper.session with
      | none =>
          simp [Gatekeeper.useAccess, hpossible, hsession] at h
          cases h
          exact .inl ⟨rfl, rfl⟩
      | some session =>
          cases hactive : session.isActiveAt time with
          | false => simp [Gatekeeper.useAccess, hpossible, hsession, Session.renew, hactive] at h
          | true =>
              simp [Gatekeeper.useAccess, hpossible, hsession, Session.renew, hactive] at h
              cases h
              exact .inr ⟨session, rfl, hactive, rfl⟩

/-- A use extends the stretch of uses. -/
theorem Current.used {gatekeeper' : Gatekeeper} (h : Current column history gatekeeper)
    (huse : gatekeeper.useAccess time = .ok gatekeeper') :
    Current column (history ++ [.used time]) (gatekeeper'.saved column) := by
  obtain ⟨hnone, rfl⟩ | ⟨session, hsession, hactive, rfl⟩ := useAccess_cases huse
  · exact current_of_none (by rw [Gatekeeper.saved, hnone]; rfl)
  · obtain ⟨hdenied, before, startTime, readTime, uses, rfl, hstart, hend, hupdate, hread,
      hduration, hchain⟩ := h session hsession
    intro renewed hrenewed
    cases Option.some.inj hrenewed
    have htime := ((Session.isActiveAt_iff hstart hend).mp hactive).2
    rw [hupdate, getD_stored hread] at htime
    exact ⟨by rw [Gatekeeper.saved_accessDeniedAt, hdenied]; rfl, before, startTime,
      column.stored readTime, uses ++ [time], by simp, by simp [hstart], by simp [hend], by simp,
      by simp, hduration, isChain_append_use hchain htime⟩

/-- What a call makes of the gatekeeper, with what it adds to the history. -/
inductive Changes (column : TextColumn) (gatekeeper : Gatekeeper) :
    Option AccessEvent → Gatekeeper → Prop
  | authenticated (sessionID : SessionID) (time : TimeInterval) :
      Changes column gatekeeper (some (.authenticated time))
        ((gatekeeper.started sessionID time).saved column)
  | ended {event : Option AccessEvent} {gatekeeper' : Gatekeeper} (h : gatekeeper'.session = none) :
      Changes column gatekeeper event gatekeeper'
  | blocked (event : Option AccessEvent) {time : TimeInterval}
      (h : gatekeeper.isAccessPossible time = false) : Changes column gatekeeper event gatekeeper
  | used {time : TimeInterval} {gatekeeper' : Gatekeeper}
      (h : gatekeeper.useAccess time = .ok gatekeeper') :
      Changes column gatekeeper (some (.used time)) (gatekeeper'.saved column)
  | unchanged : Changes column gatekeeper none gatekeeper

/-- The calls do not trap, and these are all their effects. -/
theorem perform_changes (column : TextColumn) (encrypted : String → String)
    (hfound : store.gatekeeper = some gatekeeper) (call : AccessCall) :
    ∃ event store' gatekeeper', perform column encrypted store call = .ok (event, store') ∧
      store'.gatekeeper = some gatekeeper' ∧ Changes column gatekeeper event gatekeeper' ∧
      ∀ time ∈ event.bind AccessEvent.time, call.time = some time := by
  cases call with
  | authenticateUser attempt =>
      obtain ⟨result, store', gatekeeper', heq, hfound', hcases⟩ := @authenticate_cases column _ _ attempt hfound
        (fun store => (some (evaluate encrypted attempt store).1, (evaluate encrypted attempt store).2))
        rfl
      have heq : authenticateUser column encrypted attempt store = .ok (result, store') := heq
      obtain ⟨user, rfl, -, rfl⟩ | ⟨rfl, -, rfl⟩ | ⟨rfl, hblocked, rfl⟩ | ⟨-, -, hnone, -⟩ := hcases
      · refine ⟨some (.authenticated attempt.time), store', _, ?_, hfound', .authenticated _ _,
          fun time htime => htime⟩
        simp [perform, heq]
      · refine ⟨some (.failed attempt.time), store', _, ?_, hfound', .ended rfl,
          fun time htime => htime⟩
        simp [perform, heq]
      · refine ⟨some (.failed attempt.time), store', _, ?_, hfound', .blocked _ hblocked,
          fun time htime => htime⟩
        simp [perform, heq]
      · cases hnone
  | authenticateUserBiometrically biometry attempt =>
      obtain ⟨result, store', gatekeeper', heq, hfound', hcases⟩ := @authenticate_cases column _ _
        attempt hfound (fun store => biometry.look store) (by cases biometry <;> rfl)
      have hlook : ∀ looked, (biometry.look store).1 = some looked →
          biometry ≠ .failed ∧ biometry ≠ .cancelled := by
        cases biometry <;> simp [Biometry.look]
      obtain ⟨user, rfl, hsome, rfl⟩ | ⟨rfl, hrefused, rfl⟩ | ⟨rfl, hblocked, rfl⟩ |
        ⟨rfl, hpossible, hnone, rfl⟩ := hcases
      · obtain ⟨looked, hlooked⟩ := Option.ne_none_iff_exists'.mp hsome
        refine ⟨some (.authenticated attempt.time), store', _, ?_, hfound', .authenticated _ _,
          fun time htime => htime⟩
        simp [perform, authenticateUserBiometrically, heq, hfound', (hlook _ hlooked).1,
          Except.mapError]
      · refine ⟨some (.failed attempt.time), store', _, ?_, hfound', .ended rfl,
          fun time htime => htime⟩
        simp [perform, authenticateUserBiometrically, heq, hfound', (hlook _ hrefused).1,
          (hlook _ hrefused).2, Except.mapError]
      · refine ⟨if biometry = .cancelled then none else some (.failed attempt.time), store', _, ?_,
          hfound', .blocked _ hblocked, fun time htime => ?_⟩
        · simp [perform, authenticateUserBiometrically, heq, hfound', hblocked, Except.mapError]
        · split at htime
          · cases htime
          · exact htime
      · refine ⟨none, store', _, ?_, hfound', .unchanged, fun time htime => by cases htime⟩
        cases biometry with
        | recognised => cases hnone
        | refused => cases hnone
        | cancelled =>
            simp [perform, authenticateUserBiometrically, heq, hfound', Except.mapError]
        | failed => simp [perform, authenticateUserBiometrically, heq, hfound', hpossible]
  | useAccess time =>
      cases huse : gatekeeper.useAccess time with
      | ok gatekeeper' =>
          refine ⟨some (.used time), { store with gatekeeper := some (gatekeeper'.saved column) },
            gatekeeper'.saved column, ?_, rfl, .used huse, fun time htime => htime⟩
          simp [perform, hfound, huse]
      | error error =>
          refine ⟨none, store, gatekeeper, ?_, hfound, .unchanged, fun time htime => by cases htime⟩
          simp [perform, hfound, huse]
  | changePolicy change =>
      cases hpolicy : gatekeeper.changePolicy change with
      | ok gatekeeper' =>
          have hnone := Gatekeeper.session_of_changePolicy hpolicy
          refine ⟨some .policyChanged, { store with gatekeeper := some (gatekeeper'.saved column) },
            gatekeeper'.saved column, ?_, rfl, .ended ?_, fun time htime => by cases htime⟩
          · simp [perform, hfound, hpolicy]
          · rw [Gatekeeper.saved, hnone]
            rfl
      | error error =>
          refine ⟨none, store, gatekeeper, ?_, hfound, .unchanged, fun time htime => by cases htime⟩
          simp [perform, hfound, hpolicy]
  | reset =>
      refine ⟨some .reset, _, gatekeeper.reset.saved column, rfl, ?_, .ended rfl,
        fun time htime => by cases htime⟩
      simp [hfound]

/-- What every change keeps, holds at the end of a run, in whose history each moment is that of
a call. -/
theorem performAll_induction (column : TextColumn) (encrypted : String → String)
    {p : List AccessEvent → Gatekeeper → Prop}
    (hstep : ∀ history gatekeeper event gatekeeper', p history gatekeeper →
      Changes column gatekeeper event gatekeeper' → p (history ++ event.toList) gatekeeper')
    (calls : List AccessCall) (store : IdentityStore) (history : List AccessEvent)
    (hfound : store.gatekeeper = some gatekeeper) (h : p history gatekeeper) :
    ∃ store' history' gatekeeper', performAll column encrypted calls store history =
        .ok (store', history') ∧
      store'.gatekeeper = some gatekeeper' ∧ p history' gatekeeper' ∧
      ∀ event ∈ history', event ∈ history ∨
        ∀ time ∈ event.time, ∃ call ∈ calls, call.time = some time := by
  induction calls generalizing store history gatekeeper with
  | nil => exact ⟨store, history, gatekeeper, rfl, hfound, h, fun event hevent => .inl hevent⟩
  | cons call rest ih =>
      obtain ⟨event, store', gatekeeper', heq, hfound', hchanges, htime⟩ :=
        perform_changes column encrypted hfound call
      obtain ⟨final, history', gatekeeper'', hrest, hfinal, hp, htimes⟩ :=
        ih _ _ hfound' (hstep _ _ _ _ h hchanges)
      refine ⟨final, history', gatekeeper'', by simp [performAll, heq, hrest], hfinal, hp,
        fun later hlater => ?_⟩
      rcases htimes later hlater with hold | hnew
      · rcases List.mem_append.mp hold with hold | hevent
        · exact .inl hold
        · rw [Option.mem_toList.mp hevent] at htime
          exact .inr fun time hlaterTime => ⟨call, List.mem_cons_self, htime time hlaterTime⟩
      · exact .inr fun time hlaterTime =>
          let ⟨other, hother, heq⟩ := hnew time hlaterTime
          ⟨other, List.mem_cons_of_mem _ hother, heq⟩

/-- Every call keeps the session the one of the last authentication. -/
theorem Current.changes {event : Option AccessEvent} {gatekeeper' : Gatekeeper}
    (h : Current column history gatekeeper) (hchanges : Changes column gatekeeper event gatekeeper') :
    Current column (history ++ event.toList) gatekeeper' := by
  cases hchanges with
  | authenticated sessionID time => exact current_started column history gatekeeper sessionID time
  | ended hnone => exact current_of_none hnone
  | blocked event hblocked => exact current_of_none (h.session_of_blocked hblocked)
  | used huse => exact h.used huse
  | unchanged => simpa using h

end

/-- The gap to a use that comes in time is the session duration at most, up to some slack. -/
theorem InTime.gap_le {column : TextColumn} {duration first second : TimeInterval}
    (h : InTime column duration first second) :
    second.value - first.value ≤ duration.value + TextColumn.slack first duration := by
  have hle := DigitFormat.Number.le_iff.mp h
  have hnear := (abs_le.mp (column.abs_stored_add_sub_le first duration)).2
  linarith

/-- A session is active only while it is used. In every run from a new gatekeeper, whoever is
authenticated at some moment authenticated before, nothing but uses of the session happened
since then, and neither a use nor the moment itself is later than the session duration after
what is stored of the moment before it, which is the session duration after that moment up to
some slack. The authentication is not later than the moment if no call is. -/
theorem session_in_use (column : TextColumn) (encrypted : String → String)
    (policy : AuthenticationPolicy) (users : Table User.id) (calls : List AccessCall) :
    ∃ store history gatekeeper,
      performAll column encrypted calls ⟨some (Gatekeeper.new policy), users, []⟩ [] =
        .ok (store, history) ∧
      store.gatekeeper = some gatekeeper ∧
      ∀ time, isUserAuthenticated store time = true →
        ∃ before startTime uses,
          history = before ++ .authenticated startTime :: uses.map .used ∧
          ((∀ call ∈ calls, ∀ called ∈ call.time, called ≤ time) → startTime ≤ time) ∧
          (startTime :: (uses ++ [time])).IsChain fun first second =>
            second ≤ column.stored first + gatekeeper.policy.sessionDuration ∧
            second.value - first.value ≤ gatekeeper.policy.sessionDuration.value +
              TextColumn.slack first gatekeeper.policy.sessionDuration := by
  obtain ⟨store, history, gatekeeper, hrun, hfound, h, htimes⟩ :=
    performAll_induction column encrypted (fun _ _ _ _ h hchanges => Current.changes h hchanges)
      calls ⟨some (Gatekeeper.new policy), users, []⟩ [] rfl (current_of_none rfl)
  refine ⟨store, history, gatekeeper, hrun, hfound, fun time htime => ?_⟩
  rw [isUserAuthenticated, hfound] at htime
  cases hid : (primaryUser store).bind User.sessionID with
  | none => simp [hid] at htime
  | some sessionID =>
      cases hsession : gatekeeper.session with
      | none => simp [hid, Gatekeeper.hasAccess, hsession] at htime
      | some session =>
          simp only [hid, Gatekeeper.hasAccess, hsession, decide_eq_true_eq] at htime
          obtain ⟨-, before, startTime, readTime, uses, hhistory, hstart, hend, hupdate, hread,
            hduration, hchain⟩ := h session hsession
          obtain ⟨-, hbefore⟩ := (Session.isActiveAt_iff hstart hend).mp htime.2
          rw [hupdate, getD_stored hread] at hbefore
          refine ⟨before, startTime, uses, hhistory, fun hcalls => ?_, ?_⟩
          · rcases htimes (.authenticated startTime) (by simp [hhistory]) with hnone | hcall
            · cases hnone
            · obtain ⟨call, hmem, hcalled⟩ := hcall startTime rfl
              exact hcalls call hmem startTime hcalled
          · rw [← hduration]
            exact (isChain_append_use hchain hbefore).imp fun _ _ hin => ⟨hin, InTime.gap_le hin⟩

theorem minutePolicy_attempts : 0 < 3 := by decide

/-- A minute for each use, and three attempts. -/
def minutePolicy : AuthenticationPolicy :=
  ⟨60, 3, 15, by decide +kernel, minutePolicy_attempts, fifteen_seconds_nonneg⟩

/-- One user with a password. -/
def singleUser : Table User.id := Table.empty.save ⟨"user", "secret1", none⟩

/-- A wrong password, the right one, and two uses with a cancelled request in between. -/
def visit : List AccessCall :=
  [.authenticateUser ⟨"guess1", 0, "A"⟩, .authenticateUser ⟨"secret1", 5, "B"⟩, .useAccess 50,
    .authenticateUserBiometrically .cancelled ⟨"", 55, "C"⟩, .useAccess 100]

/-- At the end of the visit somebody is authenticated, for whom the history has a start. -/
theorem session_in_use_visit :
    ∃ store history before startTime, ∃ uses : List TimeInterval,
      performAll .printed id visit ⟨some (Gatekeeper.new minutePolicy), singleUser, []⟩ [] =
        .ok (store, history) ∧
      isUserAuthenticated store 150 = true ∧
      history = before ++ .authenticated startTime :: uses.map .used ∧ startTime ≤ 150 := by
  obtain ⟨store, history, gatekeeper, hrun, hfound, huse⟩ :=
    session_in_use .printed id minutePolicy singleUser visit
  have htime : (performAll .printed id visit
      ⟨some (Gatekeeper.new minutePolicy), singleUser, []⟩ []).map
      (fun result => isUserAuthenticated result.1 150) = .ok true := by
    decide +kernel
  rw [hrun] at htime
  have htime : isUserAuthenticated store 150 = true := Except.ok.inj htime
  obtain ⟨before, startTime, uses, hhistory, hstart, -⟩ := huse 150 htime
  exact ⟨store, history, before, startTime, uses, hrun, htime, hhistory,
    hstart (by decide +kernel)⟩

/-- The right password at a moment that is read back too late: six units of its last binary
place after a full second become eight. -/
def roundedUpMoment : TimeInterval := .ofRat binary64 (600000000 + 6 / 2 ^ 23)

def roundedUpVisit : List AccessCall := [.authenticateUser ⟨"secret1", roundedUpMoment, "A"⟩]

/-- Somebody is still authenticated more than a minute after the only use of the session. -/
theorem roundedUpMoment_late :
    ¬ ∀ (column : TextColumn) (calls : List AccessCall) (store : IdentityStore)
        (history : List AccessEvent),
      performAll column id calls ⟨some (Gatekeeper.new minutePolicy), singleUser, []⟩ [] =
        .ok (store, history) →
      ∀ time, (calls.filterMap AccessCall.time ++ [time]).Pairwise (· ≤ ·) →
        isUserAuthenticated store time = true → ∃ before startTime uses,
          history = before ++ .authenticated startTime :: uses.map .used ∧ startTime ≤ time ∧
          (startTime :: (uses ++ [time])).IsChain fun first second =>
            second.value - first.value ≤ minutePolicy.sessionDuration.value := by
  intro h
  obtain ⟨store, history, -, hrun, -⟩ :=
    session_in_use .printed id minutePolicy singleUser roundedUpVisit
  have hresult : (performAll .printed id roundedUpVisit
      ⟨some (Gatekeeper.new minutePolicy), singleUser, []⟩ []).map
      (fun result => (isUserAuthenticated result.1
        (.ofRat binary64 (600000060 + 8 / 2 ^ 23)), result.2)) =
        .ok (true, [.authenticated roundedUpMoment]) := by
    decide +kernel
  rw [hrun] at hresult
  obtain ⟨htime, hhistory⟩ := Prod.mk.inj (Except.ok.inj hresult)
  obtain ⟨before, startTime, uses, hsplit, -, hchain⟩ := h .printed _ store history hrun _
    (by decide +kernel) htime
  simp only at hhistory
  rw [hhistory] at hsplit
  obtain ⟨rfl, hrest⟩ | ⟨-, hnil⟩ := List.singleton_eq_append_iff.mp hsplit
  · obtain ⟨hstart, huses⟩ := List.cons.inj hrest
    cases hstart
    cases List.map_eq_nil_iff.mp huses
    have hgap := (List.isChain_cons_cons.mp hchain).1
    revert hgap
    decide +kernel
  · cases hnil

end IdentityService

end SafeWallet
