/-
# Periods of sessions

A session is active in a closed range of moments, from its start to the duration after its
last renewal. The program forms the range each time it asks, and a range whose bounds are
in the wrong order stops it. Starting a session only asks whether it is finished or active,
so a session that has run out is started again; its start moves, and its last renewal stays
where it was.

The gatekeeper starts new sessions only and renews active ones. Its ranges are in order as
long as storing keeps the order of moments, and then the queries without a trap, which the
other modules use, are the program's.
-/

import SafeWallet.Identity.Sessions

namespace SafeWallet

namespace Session

variable (session : Session) (time : TimeInterval)

/-- The bounds of the active period are in order. -/
def Ordered : Prop :=
  ∀ startTime, session.startedAt = some startTime →
    startTime ≤ session.updatedAt.getD startTime + session.duration

/-! ## Queries that form the range -/

namespace Checked

/-- `isActiveAt(_:)`. `startTime ... endTime` traps unless its bounds are in order. -/
def isActiveAt : Trapping Bool :=
  if session.endedAt.isSome then return false
  else
    match session.startedAt with
    | none => return false
    | some startTime => do
      let endTime :=
        match session.updatedAt with
        | some updateTime => updateTime + session.duration
        | none => startTime + session.duration
      Trapping.require (startTime ≤ endTime)
      return startTime ≤ time ∧ time ≤ endTime

/-- `start(_:)`. -/
def start : Trapping (Except AccessError Session) :=
  if session.endedAt.isSome then return .error .sessionWasFinishedAlready
  else do
    if ← isActiveAt session time then return .error .sessionWasActiveAlready
    return .ok { session with startedAt := some time }

/-- `finish(_:)`. -/
def finish : Trapping (Except AccessError Session) := do
  if ← isActiveAt session time then return .ok { session with endedAt := some time }
  return .error .sessionIsNotActive

/-- `renew(_:)`. -/
def renew : Trapping (Except AccessError Session) := do
  if ← isActiveAt session time then return .ok { session with updatedAt := some time }
  return .error .sessionIsNotActive

end Checked

variable {session time}

/-- With the bounds in order the query is the one without a trap. -/
theorem Ordered.isActiveAt (h : session.Ordered) (time : TimeInterval) :
    Checked.isActiveAt session time = .ok (session.isActiveAt time) := by
  cases hend : session.endedAt with
  | some endTime => simp [Checked.isActiveAt, Session.isActiveAt, hend]
  | none =>
      cases hstart : session.startedAt with
      | none => simp [Checked.isActiveAt, Session.isActiveAt, hend, hstart]
      | some startTime =>
          have hle := h startTime hstart
          cases hupdate : session.updatedAt with
          | none =>
              rw [hupdate, Option.getD_none] at hle
              simp [Checked.isActiveAt, Session.isActiveAt, hend, hstart, hupdate, hle]
          | some updateTime =>
              rw [hupdate, Option.getD_some] at hle
              simp [Checked.isActiveAt, Session.isActiveAt, hend, hstart, hupdate, hle]

theorem isActiveAt_of_ended (hend : session.endedAt ≠ none) (time : TimeInterval) :
    Checked.isActiveAt session time = .ok false ∧ session.isActiveAt time = false := by
  obtain ⟨endTime, hend⟩ := Option.ne_none_iff_exists'.mp hend
  simp [Checked.isActiveAt, Session.isActiveAt, hend]

/-- With the bounds in the wrong order the query traps, unless the session is finished. -/
theorem isActiveAt_of_not_ordered (hend : session.endedAt = none) (h : ¬ session.Ordered)
    (time : TimeInterval) : Checked.isActiveAt session time = .error .precondition := by
  obtain ⟨startTime, hstart, hlt⟩ : ∃ startTime, session.startedAt = some startTime ∧
      ¬ startTime ≤ session.updatedAt.getD startTime + session.duration := by
    simpa [Ordered] using h
  cases hupdate : session.updatedAt with
  | none =>
      rw [hupdate, Option.getD_none] at hlt
      simp [Checked.isActiveAt, hend, hstart, hupdate, hlt]
  | some updateTime =>
      rw [hupdate, Option.getD_some] at hlt
      simp [Checked.isActiveAt, hend, hstart, hupdate, hlt]

/-- An answer is always that of the query without a trap. -/
theorem isActiveAt_eq_of_ok {active : Bool} (h : Checked.isActiveAt session time = .ok active) :
    session.isActiveAt time = active := by
  by_cases hend : session.endedAt = none
  · by_cases hordered : session.Ordered
    · rw [hordered.isActiveAt] at h
      exact Except.ok.inj h
    · rw [isActiveAt_of_not_ordered hend hordered] at h
      cases h
  · obtain ⟨hchecked, hinactive⟩ := isActiveAt_of_ended hend time
    rw [hchecked] at h
    rw [hinactive]
    exact Except.ok.inj h

theorem isActiveAt_eq_true_iff : session.isActiveAt time = true ↔
    session.endedAt = none ∧ ∃ startTime, session.startedAt = some startTime ∧
      startTime ≤ time ∧ time ≤ session.updatedAt.getD startTime + session.duration := by
  cases hend : session.endedAt with
  | some endTime => simp [Session.isActiveAt, hend]
  | none => cases hstart : session.startedAt <;> simp [Session.isActiveAt, hend, hstart]

theorem Ordered.start (h : session.Ordered) (time : TimeInterval) :
    Checked.start session time = .ok (session.start time) := by
  rw [Checked.start, Session.start]
  split
  · rfl
  · rw [h.isActiveAt, Trapping.ok_bind]
    split <;> rfl

theorem Ordered.renew (h : session.Ordered) (time : TimeInterval) :
    Checked.renew session time = .ok (session.renew time) := by
  rw [Checked.renew, Session.renew, h.isActiveAt, Trapping.ok_bind]
  split <;> rfl

theorem Ordered.finish (h : session.Ordered) (time : TimeInterval) :
    Checked.finish session time = .ok (if session.isActiveAt time
      then .ok { session with endedAt := some time } else .error .sessionIsNotActive) := by
  rw [Checked.finish, h.isActiveAt, Trapping.ok_bind]
  split <;> rfl

/-- A session that is started again too late after its last renewal is in no order any more. -/
theorem start_late {startTime updateTime : TimeInterval} (hstart : session.startedAt = some startTime)
    (hend : session.endedAt = none) (hupdate : session.updatedAt = some updateTime)
    (hordered : session.Ordered) (hlate : updateTime + session.duration < time) :
    Checked.start session time = .ok (.ok { session with startedAt := some time }) ∧
      ∀ moment, Checked.isActiveAt { session with startedAt := some time } moment =
        .error .precondition := by
  constructor
  · have hinactive : session.isActiveAt time = false := by
      simp [Session.isActiveAt, hend, hstart, hupdate, hlate]
    simp [hordered.start, Session.start, hend, hinactive]
  · exact isActiveAt_of_not_ordered hend fun h => by
      have hle := h time rfl
      rw [hupdate] at hle
      exact absurd hle (not_le.mpr hlate)

end Session

/-! ## Calls in any order -/

/-- A call on a session, at some moment. -/
inductive SessionCall
  | start (time : TimeInterval)
  | renew (time : TimeInterval)
  | finish (time : TimeInterval)
  deriving DecidableEq, Repr

namespace SessionCall

/-- What the call does with a session. -/
def apply (session : Session) : SessionCall → Trapping (Except AccessError Session)
  | .start time => Session.Checked.start session time
  | .renew time => Session.Checked.renew session time
  | .finish time => Session.Checked.finish session time

/-- The moment of a call that uses the session. -/
def useTime : SessionCall → Option TimeInterval
  | .start time | .renew time => some time
  | .finish _ => none

end SessionCall

/-- A session and the calls that it accepted. -/
structure SessionUsage where
  session : Session
  accepted : List SessionCall
  deriving DecidableEq, Repr

namespace SessionUsage

/-- A session that is not used yet. -/
def fresh (session : Session) : SessionUsage := ⟨session, []⟩

/-- One call. A call that is rejected changes nothing. -/
def step (usage : SessionUsage) (call : SessionCall) : Trapping SessionUsage := do
  match ← call.apply usage.session with
  | .ok session => return ⟨session, usage.accepted ++ [call]⟩
  | .error _ => return usage

/-- Calls one after the other. -/
def run (calls : List SessionCall) (usage : SessionUsage) : Trapping SessionUsage :=
  calls.foldlM step usage

/-- The moment the session was started or renewed last. -/
def lastUse (usage : SessionUsage) : Option TimeInterval :=
  (usage.accepted.filterMap SessionCall.useTime).getLast?

/-- The session was started before. -/
def WasStarted (usage : SessionUsage) : Prop := ∃ time, .start time ∈ usage.accepted

/-- Whether the session is active can be asked at every moment, and it is only in the duration
after its last use. -/
def Queryable (usage : SessionUsage) : Prop :=
  ∀ time, ∃ active, Session.Checked.isActiveAt usage.session time = .ok active ∧
    (active = true → ∃ last, usage.lastUse = some last ∧ time ≤ last + usage.session.duration)

/-- A session that was started and is not finished is started again only in its period. -/
def Timely (usage : SessionUsage) : SessionCall → Prop
  | .start time => ∀ startTime, usage.session.startedAt = some startTime →
      usage.session.endedAt = none →
        startTime ≤ time ∧ time ≤ usage.session.updatedAt.getD startTime + usage.session.duration
  | .renew _ | .finish _ => True

/-- Each call of a run is timely when it is made. -/
def TimelyRun (calls : List SessionCall) (usage : SessionUsage) : Prop :=
  ∀ front call back reached, calls = front ++ call :: back →
    run front usage = .ok reached → reached.Timely call

end SessionUsage

/-- In a run of calls no query traps or outlives the last use, and a session that was started
before is not started again. -/
structure Session.Safe (session : Session) (calls : List SessionCall) : Prop where
  queryable : ∀ front back, calls = front ++ back →
    ∃ usage, SessionUsage.run front (.fresh session) = .ok usage ∧ usage.Queryable
  startedOnce : ∀ front time back usage, calls = front ++ .start time :: back →
    SessionUsage.run front (.fresh session) = .ok usage → usage.WasStarted →
      ∀ session', Session.Checked.start usage.session time ≠ .ok (.ok session')

namespace SessionUsage

variable {usage usage' : SessionUsage} {call : SessionCall}

theorem run_concat (front : List SessionCall) (call : SessionCall) (usage : SessionUsage) :
    run (front ++ [call]) usage = run front usage >>= fun reached => reached.step call := by
  rw [run, List.foldlM_append]
  exact bind_congr fun reached => bind_pure (reached.step call)

/-! ### One call -/

/-- What a call that does not trap makes of a session. -/
theorem step_cases (h : usage.step call = .ok usage') :
    usage' = usage ∨ usage'.accepted = usage.accepted ++ [call] ∧
      ((∃ time, call = .start time ∧ usage.session.endedAt = none ∧
          Session.Checked.isActiveAt usage.session time = .ok false ∧
          usage'.session = { usage.session with startedAt := some time }) ∨
        (∃ time, call = .renew time ∧ Session.Checked.isActiveAt usage.session time = .ok true ∧
          usage'.session = { usage.session with updatedAt := some time }) ∨
        ∃ time, call = .finish time ∧
          usage'.session = { usage.session with endedAt := some time }) := by
  obtain ⟨result, hresult, h⟩ := Trapping.bind_eq_ok_iff.mp h
  cases result with
  | error error => exact .inl (Except.ok.inj h).symm
  | ok session =>
      cases Except.ok.inj h
      refine .inr ⟨rfl, ?_⟩
      cases call with
      | start time =>
          refine .inl ⟨time, rfl, ?_⟩
          rw [SessionCall.apply, Session.Checked.start] at hresult
          split at hresult
          · cases hresult
          · rename_i hend
            obtain ⟨active, hactive, hresult⟩ := Trapping.bind_eq_ok_iff.mp hresult
            cases active with
            | true => cases hresult
            | false =>
                cases hresult
                exact ⟨by simpa using hend, hactive, rfl⟩
      | renew time =>
          refine .inr (.inl ⟨time, rfl, ?_⟩)
          rw [SessionCall.apply, Session.Checked.renew] at hresult
          obtain ⟨active, hactive, hresult⟩ := Trapping.bind_eq_ok_iff.mp hresult
          cases active with
          | true =>
              cases hresult
              exact ⟨hactive, rfl⟩
          | false => cases hresult
      | finish time =>
          refine .inr (.inr ⟨time, rfl, ?_⟩)
          rw [SessionCall.apply, Session.Checked.finish] at hresult
          obtain ⟨active, -, hresult⟩ := Trapping.bind_eq_ok_iff.mp hresult
          cases active with
          | true =>
              cases hresult
              rfl
          | false => cases hresult

/-! ### Timely calls -/

/-- The start is the last use or comes before it. -/
structure Sound (usage : SessionUsage) : Prop where
  duration_pos : 0 < usage.session.duration
  unstarted : usage.session.startedAt = none →
    usage.session.updatedAt = none ∧ ¬ usage.WasStarted
  started : ∀ startTime, usage.session.startedAt = some startTime →
    usage.lastUse = some (usage.session.updatedAt.getD startTime) ∧
      startTime ≤ usage.session.updatedAt.getD startTime

theorem sound_fresh {id : SessionID} {duration : TimeInterval} {session : Session}
    (h : Session.make id duration = .ok session) : (fresh session).Sound := by
  rw [Session.make] at h
  split at h
  · rename_i hpos
    cases h
    exact ⟨hpos, fun _ => ⟨rfl, by simp [WasStarted, fresh]⟩, by simp [fresh]⟩
  · cases h

theorem Sound.ordered (h : usage.Sound) : usage.session.Ordered := by
  intro startTime hstart
  exact (h.started startTime hstart).2.trans (DigitFormat.Number.le_add_of_nonneg h.duration_pos.le)

theorem Sound.queryable (h : usage.Sound) : usage.Queryable := by
  intro time
  refine ⟨_, h.ordered.isActiveAt time, fun hactive => ?_⟩
  obtain ⟨-, startTime, hstart, -, hbefore⟩ := Session.isActiveAt_eq_true_iff.mp hactive
  exact ⟨_, (h.started startTime hstart).1, hbefore⟩

/-- A timely start of a session that was started is rejected. -/
theorem Sound.start_rejected (h : usage.Sound) {time : TimeInterval}
    (htimely : usage.Timely (.start time)) (hstarted : usage.WasStarted) (session : Session) :
    Session.Checked.start usage.session time ≠ .ok (.ok session) := by
  cases hstart : usage.session.startedAt with
  | none => exact absurd hstarted (h.unstarted hstart).2
  | some startTime =>
      rw [h.ordered.start, Session.start]
      cases hend : usage.session.endedAt with
      | some endTime => simp
      | none =>
          have hactive : usage.session.isActiveAt time = true :=
            Session.isActiveAt_eq_true_iff.mpr ⟨hend, startTime, hstart, htimely _ hstart hend⟩
          simp [hactive]

/-- Timely calls do not trap. -/
theorem Sound.exists_step (h : usage.Sound) (call : SessionCall) :
    ∃ usage', usage.step call = .ok usage' := by
  have hresult : ∃ result, call.apply usage.session = .ok result := by
    cases call with
    | start time => exact ⟨_, h.ordered.start time⟩
    | renew time => exact ⟨_, h.ordered.renew time⟩
    | finish time => exact ⟨_, h.ordered.finish time⟩
  obtain ⟨result, hresult⟩ := hresult
  rw [step, hresult, Trapping.ok_bind]
  cases result with
  | ok session => exact ⟨_, rfl⟩
  | error error => exact ⟨_, rfl⟩

theorem Sound.step (h : usage.Sound) (htimely : usage.Timely call)
    (hstep : usage.step call = .ok usage') : usage'.Sound := by
  obtain rfl | ⟨haccepted, ⟨time, rfl, hend, hinactive, hsession⟩ |
    ⟨time, rfl, hactive, hsession⟩ | ⟨time, rfl, hsession⟩⟩ := step_cases hstep
  · exact h
  · -- Had the session been started, a timely start would have found it active.
    have hnone : usage.session.startedAt = none := by
      cases hstart : usage.session.startedAt with
      | none => rfl
      | some startTime =>
          have hactive : usage.session.isActiveAt time = true :=
            Session.isActiveAt_eq_true_iff.mpr ⟨hend, startTime, hstart, htimely _ hstart hend⟩
          rw [h.ordered.isActiveAt, hactive] at hinactive
          cases hinactive
    have hupdate := (h.unstarted hnone).1
    refine ⟨by simpa [hsession] using h.duration_pos, by simp [hsession], ?_⟩
    intro startTime hstart
    have heq : time = startTime := by simpa [hsession] using hstart
    simp [lastUse, haccepted, hsession, hupdate, SessionCall.useTime, heq]
  · rw [h.ordered.isActiveAt, Except.ok.injEq] at hactive
    obtain ⟨-, startTime, hstart, hafter, -⟩ := Session.isActiveAt_eq_true_iff.mp hactive
    refine ⟨by simpa [hsession] using h.duration_pos, by simp [hsession, hstart], ?_⟩
    intro startTime' hstart'
    have heq : startTime = startTime' := by simpa [hsession, hstart] using hstart'
    simp [lastUse, haccepted, hsession, SessionCall.useTime, ← heq, hafter]
  · refine ⟨by simpa [hsession] using h.duration_pos, fun hnone => ?_, fun startTime hstart => ?_⟩
    · simpa [WasStarted, haccepted, hsession] using h.unstarted (by simpa [hsession] using hnone)
    · simpa [lastUse, haccepted, hsession, SessionCall.useTime] using
        h.started startTime (by simpa [hsession] using hstart)

/-- A run of timely calls does not trap and keeps the session sound. -/
theorem Sound.run (h : usage.Sound) {calls : List SessionCall} (htimely : TimelyRun calls usage) :
    ∃ reached, run calls usage = .ok reached ∧ reached.Sound := by
  induction calls using List.reverseRecOn with
  | nil => exact ⟨usage, rfl, h⟩
  | append_singleton calls call ih =>
      obtain ⟨reached, hreached, hsound⟩ := ih fun front next back middle heq =>
        htimely front next (back ++ [call]) middle (by simp [heq])
      obtain ⟨final, hfinal⟩ := hsound.exists_step call
      have hcall := htimely calls call [] reached (by simp) hreached
      exact ⟨final, by rw [run_concat, hreached, Trapping.ok_bind, hfinal],
        hsound.step hcall hfinal⟩

theorem timelyRun_cons {rest : List SessionCall} : TimelyRun (call :: rest) usage ↔
    usage.Timely call ∧ ∀ usage', usage.step call = .ok usage' → TimelyRun rest usage' := by
  constructor
  · intro h
    refine ⟨h [] call rest usage rfl rfl, fun usage' hstep front next back reached heq hrun => ?_⟩
    refine h (call :: front) next back reached (by simp [heq]) ?_
    rw [run, List.foldlM_cons, hstep]
    exact hrun
  · rintro ⟨hcall, hrest⟩ front next back reached heq hrun
    cases front with
    | nil =>
        cases hrun
        cases heq
        exact hcall
    | cons first front =>
        cases heq
        rw [run, List.foldlM_cons] at hrun
        obtain ⟨usage', hstep, hrun⟩ := Trapping.bind_eq_ok_iff.mp hrun
        exact hrest usage' hstep front next back reached rfl hrun

/-- A session with a start was started by one of its calls. -/
theorem wasStarted_of_run {calls : List SessionCall} {session : Session}
    (hfresh : session.startedAt = none) {reached : SessionUsage}
    (hrun : run calls (fresh session) = .ok reached) {startTime : TimeInterval}
    (hstart : reached.session.startedAt = some startTime) : reached.WasStarted := by
  induction calls using List.reverseRecOn generalizing reached startTime with
  | nil =>
      cases hrun
      rw [fresh, hfresh] at hstart
      cases hstart
  | append_singleton calls call ih =>
      rw [run_concat] at hrun
      obtain ⟨middle, hmiddle, hstep⟩ := Trapping.bind_eq_ok_iff.mp hrun
      obtain rfl | ⟨haccepted, ⟨time, rfl, -, -, hsession⟩ | ⟨time, rfl, -, hsession⟩ |
        ⟨time, rfl, hsession⟩⟩ := step_cases hstep
      · exact ih hmiddle hstart
      · exact ⟨time, by simp [haccepted]⟩
      · obtain ⟨first, hfirst⟩ := ih hmiddle (by simpa [hsession] using hstart)
        exact ⟨first, by simp [haccepted, hfirst]⟩
      · obtain ⟨first, hfirst⟩ := ih hmiddle (by simpa [hsession] using hstart)
        exact ⟨first, by simp [haccepted, hfirst]⟩

end SessionUsage

namespace Session

open SessionUsage

/-- Calls on a new session leave it safe exactly if it is never started outside of its period
once it was started and as long as it is not finished. -/
theorem calls_safe_iff {id : SessionID} {duration : TimeInterval} {session : Session}
    (h : Session.make id duration = .ok session) (calls : List SessionCall) :
    session.Safe calls ↔ TimelyRun calls (fresh session) := by
  have hsound := sound_fresh h
  constructor
  · intro hsafe front call back usage heq hrun
    cases call with
    | renew time => trivial
    | finish time => trivial
    | start time =>
        intro startTime hstart hend
        have hnone : session.startedAt = none := by
          rw [Session.make] at h
          split at h
          · cases h
            rfl
          · cases h
        obtain ⟨usage', hrun', hqueryable⟩ := hsafe.queryable front (.start time :: back) heq
        cases Except.ok.inj (hrun.symm.trans hrun')
        obtain ⟨active, hactive, -⟩ := hqueryable time
        -- The start is rejected and the session is not finished, so that it is active.
        have hrejected := hsafe.startedOnce front time back usage heq hrun
          (wasStarted_of_run hnone hrun hstart)
        cases active with
        | false =>
            refine absurd ?_ (hrejected { usage.session with startedAt := some time })
            simp [Session.Checked.start, hend, hactive]
        | true =>
            have htime := Session.isActiveAt_eq_true_iff.mp (Session.isActiveAt_eq_of_ok hactive)
            obtain ⟨-, startTime', hstart', hperiod⟩ := htime
            cases hstart.symm.trans hstart'
            exact hperiod
  · intro htimely
    have hreached (front back : List SessionCall) (heq : calls = front ++ back) :
        ∃ usage, run front (fresh session) = .ok usage ∧ usage.Sound :=
      hsound.run fun first call rest usage hfront =>
        htimely first call (rest ++ back) usage (by simp [heq, hfront])
    constructor
    · intro front back heq
      obtain ⟨usage, hrun, hfinal⟩ := hreached front back heq
      exact ⟨usage, hrun, hfinal.queryable⟩
    · intro front time back usage heq hrun hstarted
      obtain ⟨usage', hrun', hfinal⟩ := hreached front (.start time :: back) heq
      cases Except.ok.inj (hrun.symm.trans hrun')
      exact hfinal.start_rejected (htimely front (.start time) back usage heq hrun) hstarted

/-- A session of ten seconds. -/
def brief : Session := ⟨"A", 10, none, none, none⟩

/-- A session that is started again during its period and after its end is safe. -/
theorem brief_safe : brief.Safe [.start 0, .renew 5, .start 12, .finish 14, .start 100] := by
  have hmake : Session.make "A" 10 = .ok brief := by decide +kernel
  have hstart : (fresh brief).step (.start 0) =
      .ok ⟨⟨"A", 10, some 0, none, none⟩, [.start 0]⟩ := by decide +kernel
  have hrenew : (⟨⟨"A", 10, some 0, none, none⟩, [.start 0]⟩ : SessionUsage).step (.renew 5) =
      .ok ⟨⟨"A", 10, some 0, none, some 5⟩, [.start 0, .renew 5]⟩ := by decide +kernel
  have hrejected : (⟨⟨"A", 10, some 0, none, some 5⟩, [.start 0, .renew 5]⟩ : SessionUsage).step
      (.start 12) = .ok ⟨⟨"A", 10, some 0, none, some 5⟩, [.start 0, .renew 5]⟩ := by
    decide +kernel
  have hfinish : (⟨⟨"A", 10, some 0, none, some 5⟩, [.start 0, .renew 5]⟩ : SessionUsage).step
      (.finish 14) = .ok ⟨⟨"A", 10, some 0, some 14, some 5⟩, [.start 0, .renew 5, .finish 14]⟩ := by
    decide +kernel
  refine (calls_safe_iff hmake _).mpr ?_
  rw [timelyRun_cons, hstart]
  refine ⟨by simp [Timely, fresh, brief], fun usage heq => ?_⟩
  cases heq
  rw [timelyRun_cons, hrenew]
  refine ⟨trivial, fun usage heq => ?_⟩
  cases heq
  rw [timelyRun_cons, hrejected]
  refine ⟨fun startTime hstart hend => ?_, fun usage heq => ?_⟩
  · cases hstart
    decide +kernel
  cases heq
  rw [timelyRun_cons, hfinish]
  refine ⟨trivial, fun usage heq => ?_⟩
  cases heq
  rw [timelyRun_cons]
  refine ⟨by simp [Timely], fun usage heq front call back reached hnil => ?_⟩
  simp at hnil

/-- Started again after it has run out, a session that was renewed stops the program with the
next query. -/
theorem brief_restarted :
    Session.make "A" 10 = .ok brief ∧
    (∃ usage, run [.start 0, .renew 1] (fresh brief) = .ok usage ∧ usage.WasStarted ∧
      ∃ session, Checked.start usage.session 100 = .ok (.ok session) ∧
        ∀ moment, Checked.isActiveAt session moment = .error .precondition) ∧
    ¬ brief.Safe [.start 0, .renew 1, .start 100] := by
  have hrun : run [.start 0, .renew 1] (fresh brief) =
      .ok ⟨⟨"A", 10, some 0, none, some 1⟩, [.start 0, .renew 1]⟩ := by decide +kernel
  have hstarted : WasStarted ⟨⟨"A", 10, some 0, none, some 1⟩, [.start 0, .renew 1]⟩ :=
    ⟨0, by simp⟩
  have hordered : (⟨"A", 10, some 0, none, some 1⟩ : Session).Ordered := by
    intro startTime hstart
    cases hstart
    decide +kernel
  obtain ⟨hstart, htraps⟩ := @start_late ⟨"A", 10, some 0, none, some 1⟩ 100 0 1 rfl rfl rfl
    hordered (by decide +kernel)
  refine ⟨by decide +kernel, ⟨_, hrun, hstarted, _, hstart, htraps⟩, fun h => ?_⟩
  exact h.startedOnce [.start 0, .renew 1] 100 [] _ rfl hrun hstarted _ hstart

end Session

/-! ## The gatekeeper -/

namespace IdentityService

/-- The gatekeeper's session is in order, if it has one. -/
def InOrder (gatekeeper : Gatekeeper) : Prop :=
  ∀ session, gatekeeper.session = some session → 0 < session.duration ∧
    ∀ startTime, session.startedAt = some startTime →
      startTime ≤ session.updatedAt.getD startTime

theorem InOrder.saved {column : TextColumn} (hmono : Monotone column.stored)
    {gatekeeper : Gatekeeper} (h : InOrder gatekeeper) : InOrder (gatekeeper.saved column) := by
  intro session hsession
  obtain ⟨live, hlive, rfl⟩ := Option.map_eq_some_iff.mp hsession
  obtain ⟨hpos, hle⟩ := h live hlive
  refine ⟨hpos, fun startTime hstart => ?_⟩
  obtain ⟨liveStart, hliveStart, rfl⟩ := Option.map_eq_some_iff.mp hstart
  have hstored := hmono (hle liveStart hliveStart)
  cases hupdate : live.updatedAt with
  | none => exact le_rfl
  | some updateTime =>
      rw [hupdate] at hstored
      exact hstored

theorem InOrder.changes {column : TextColumn} (hmono : Monotone column.stored)
    {gatekeeper gatekeeper' : Gatekeeper} {event : Option AccessEvent}
    (h : InOrder gatekeeper) (hchanges : Changes column gatekeeper event gatekeeper') :
    InOrder gatekeeper' := by
  cases hchanges with
  | authenticated sessionID time =>
      refine InOrder.saved hmono fun session hsession => ?_
      cases Option.some.inj hsession
      exact ⟨gatekeeper.policy.sessionDuration_pos, fun startTime hstart => le_rfl⟩
  | ended hnone =>
      intro session hsession
      rw [hnone] at hsession
      cases hsession
  | blocked event hblocked => exact h
  | used huse =>
      refine InOrder.saved hmono fun session hsession => ?_
      obtain ⟨hnone, rfl⟩ | ⟨used, hused, hactive, rfl⟩ := useAccess_cases huse
      · exact h session hsession
      · obtain ⟨-, startTime, hstart, hafter, -⟩ := Session.isActiveAt_eq_true_iff.mp hactive
        cases Option.some.inj hsession
        refine ⟨(h used hused).1, fun startTime' hstart' => ?_⟩
        cases hstart.symm.trans hstart'
        exact hafter
  | unchanged => exact h

/-- The gatekeeper never asks a session that is out of order. In every run from a new
gatekeeper, its session answers each query and each renewal as the session without traps. -/
theorem gatekeeper_queries {column : TextColumn} (hmono : Monotone column.stored)
    (encrypted : String → String) (policy : AuthenticationPolicy)
    (users : Table User.id) (calls : List AccessCall) :
    ∃ store history gatekeeper,
      performAll column encrypted calls ⟨some (Gatekeeper.new policy), users, []⟩ [] =
        .ok (store, history) ∧
      store.gatekeeper = some gatekeeper ∧
      ∀ session, gatekeeper.session = some session → ∀ time,
        Session.Checked.isActiveAt session time = .ok (session.isActiveAt time) ∧
        Session.Checked.renew session time = .ok (session.renew time) := by
  obtain ⟨store, history, gatekeeper, hrun, hfound, h, -⟩ := performAll_induction column encrypted
    (p := fun _ gatekeeper => InOrder gatekeeper)
    (fun _ _ _ _ h hchanges => h.changes hmono hchanges) calls
    ⟨some (Gatekeeper.new policy), users, []⟩ [] rfl (by simp [InOrder, Gatekeeper.new])
  refine ⟨store, history, gatekeeper, hrun, hfound, fun session hsession time => ?_⟩
  obtain ⟨hpos, hle⟩ := h session hsession
  have hordered : session.Ordered := fun startTime hstart =>
    (hle startTime hstart).trans (DigitFormat.Number.le_add_of_nonneg hpos.le)
  exact ⟨hordered.isActiveAt time, hordered.renew time⟩

/-- Printing with fifteen digits keeps the order. -/
theorem printed_monotone : Monotone TextColumn.printed.stored := fun _ _ h =>
  binary64.round_mono (fifteenDigits.round_mono h)

end IdentityService

end SafeWallet
