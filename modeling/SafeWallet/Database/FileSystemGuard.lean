/-
# Waiting for the file system

Files cannot be opened while the device is locked. The guard hears of locking and
unlocking through notifications, and a thread that wants to open the database leaves a
semaphore with it. All work of the guard is done on a serial queue, so a notification may
still be queued when a semaphore is left, and the device may be locked and unlocked any
number of times in between.

A semaphore is signalled once and no wake-up is lost, in whatever order threads and
notifications come: it is still queued, it is on the list while there is no access, or it
has been signalled.
-/

import Mathlib.Data.List.Nodup
import Mathlib.Data.List.Range
import Mathlib.Logic.Relation

namespace SafeWallet

/-- Work on the serial queue of the guard; semaphores are numbered. -/
inductive GuardTask
  | addUnlockSemaphore (semaphore : ℕ)
  | didUnlock
  | didLock
  deriving DecidableEq, Repr

/-- The semaphore that a piece of work carries. -/
def GuardTask.semaphore : GuardTask → Option ℕ
  | addUnlockSemaphore semaphore => some semaphore
  | _ => none

/-- `FileSystemGuard`, with the signals that it has sent. -/
structure FileSystemGuard where
  hasAccess : Bool := true
  semaphores : List ℕ := []
  signalled : List ℕ := []
  deriving DecidableEq, Repr

namespace FileSystemGuard

/-- `checkSemaphore(_:)`. -/
def checkSemaphore (guard : FileSystemGuard) (sema : ℕ) : FileSystemGuard × Bool :=
  if guard.hasAccess then ({ guard with signalled := guard.signalled ++ [sema] }, true)
  else (guard, false)

/-- The closure of `addUnlockSemaphore(_:)`. -/
def addUnlockSemaphore (guard : FileSystemGuard) (semaphore : ℕ) : FileSystemGuard :=
  match guard.checkSemaphore semaphore with
  | (guard, false) => { guard with semaphores := guard.semaphores ++ [semaphore] }
  | (guard, true) => guard

/-- The loop of `didUnlock()`, which removes the first semaphore and checks it. -/
def checkAll (guard : FileSystemGuard) : List ℕ → FileSystemGuard
  | [] => { guard with semaphores := [] }
  | sema :: rest => checkAll (guard.checkSemaphore sema).1 rest

/-- The closure of `didUnlock()`. -/
def didUnlock (guard : FileSystemGuard) : FileSystemGuard :=
  { guard with hasAccess := true }.checkAll guard.semaphores

/-- The closure of `didLock()`. -/
def didLock (guard : FileSystemGuard) : FileSystemGuard := { guard with hasAccess := false }

/-- One piece of work of the queue. -/
def perform (guard : FileSystemGuard) : GuardTask → FileSystemGuard
  | .addUnlockSemaphore semaphore => guard.addUnlockSemaphore semaphore
  | .didUnlock => guard.didUnlock
  | .didLock => guard.didLock

theorem checkAll_eq {guard : FileSystemGuard} (h : guard.hasAccess = true) (semas : List ℕ) :
    guard.checkAll semas =
      { guard with semaphores := [], signalled := guard.signalled ++ semas } := by
  induction semas generalizing guard with
  | nil => simp [checkAll]
  | cons sema rest ih =>
      have hcheck : (guard.checkSemaphore sema).1 =
          { guard with signalled := guard.signalled ++ [sema] } := by
        simp [checkSemaphore, h]
      have hrest := @ih { guard with signalled := guard.signalled ++ [sema] } h
      rw [checkAll, hcheck, hrest, List.append_assoc, List.singleton_append]

/-- Unlocking serves every waiting semaphore. -/
theorem didUnlock_eq (guard : FileSystemGuard) : guard.didUnlock =
    ⟨true, [], guard.signalled ++ guard.semaphores⟩ :=
  checkAll_eq rfl guard.semaphores

end FileSystemGuard

/-! ## Threads -/

/-- The guard, its queue, and the threads that open the database: those that wait for their
semaphore, those on the main thread that ask for access again and again, and those that went
on. -/
structure GuardedOpening where
  guard : FileSystemGuard := {}
  queue : List GuardTask := []
  next : ℕ := 0
  waiting : List ℕ := []
  polling : List ℕ := []
  opened : List ℕ := []

namespace GuardedOpening

/-- `sqlite3_open(_:_:)` of `DataProtectionAwareCSQLite3` leaves a new semaphore. -/
def beginOpen (s : GuardedOpening) (isMainThread : Bool) : GuardedOpening :=
  { s with
    queue := s.queue ++ [.addUnlockSemaphore s.next]
    next := s.next + 1
    waiting := if isMainThread then s.waiting else s.waiting ++ [s.next]
    polling := if isMainThread then s.polling ++ [s.next] else s.polling }

/-- What may happen next: a thread wants to open the database, a notification comes, the queue
does its first piece of work, a signalled thread wakes up, or the main thread sees access. -/
inductive Step : GuardedOpening → GuardedOpening → Prop
  | beginOpen (s : GuardedOpening) (isMainThread : Bool) : Step s (s.beginOpen isMainThread)
  | didUnlock (s : GuardedOpening) : Step s { s with queue := s.queue ++ [.didUnlock] }
  | didLock (s : GuardedOpening) : Step s { s with queue := s.queue ++ [.didLock] }
  | perform (s : GuardedOpening) (task : GuardTask) (rest : List GuardTask)
      (first : s.queue = task :: rest) :
      Step s { s with guard := s.guard.perform task, queue := rest }
  | wake (s : GuardedOpening) (semaphore : ℕ) (waits : semaphore ∈ s.waiting)
      (signalled : semaphore ∈ s.guard.signalled) :
      Step s { s with
        waiting := s.waiting.erase semaphore, opened := s.opened ++ [semaphore] }
  | seesAccess (s : GuardedOpening) (semaphore : ℕ) (polls : semaphore ∈ s.polling)
      (access : s.guard.hasAccess = true) :
      Step s { s with
        polling := s.polling.erase semaphore, opened := s.opened ++ [semaphore] }

/-- Runs of any length. -/
abbrev Runs : GuardedOpening → GuardedOpening → Prop := Relation.ReflTransGen Step

/-- The places where semaphores are. -/
def places (s : GuardedOpening) : List ℕ :=
  s.guard.signalled ++ s.guard.semaphores ++ s.queue.filterMap GuardTask.semaphore

/-- Every semaphore is in one place, the list is empty while there is access, and each thread
has its own semaphore. -/
structure Kept (s : GuardedOpening) : Prop where
  places : s.places.Perm (List.range s.next)
  access : s.guard.hasAccess = true → s.guard.semaphores = []
  threads : (s.waiting ++ s.polling ++ s.opened).Perm (List.range s.next)

/-! ## Steps -/

/-- One piece of work moves semaphores forward and loses none. -/
theorem perform_places (guard : FileSystemGuard) (task : GuardTask) (rest : List GuardTask)
    (haccess : guard.hasAccess = true → guard.semaphores = []) :
    ((guard.perform task).signalled ++ (guard.perform task).semaphores ++
      rest.filterMap GuardTask.semaphore).Perm
        (guard.signalled ++ guard.semaphores ++
          (task :: rest).filterMap GuardTask.semaphore) := by
  cases task with
  | addUnlockSemaphore semaphore =>
      by_cases h : guard.hasAccess = true
      · simp [FileSystemGuard.perform, FileSystemGuard.addUnlockSemaphore,
          FileSystemGuard.checkSemaphore, h, haccess h, GuardTask.semaphore]
      · simp [FileSystemGuard.perform, FileSystemGuard.addUnlockSemaphore,
          FileSystemGuard.checkSemaphore, h, GuardTask.semaphore]
  | didUnlock =>
      rw [FileSystemGuard.perform, FileSystemGuard.didUnlock_eq]
      simp [List.filterMap_cons, GuardTask.semaphore]
  | didLock =>
      simp [FileSystemGuard.perform, FileSystemGuard.didLock, List.filterMap_cons,
        GuardTask.semaphore]

theorem perform_access (guard : FileSystemGuard) (task : GuardTask)
    (haccess : guard.hasAccess = true → guard.semaphores = []) :
    (guard.perform task).hasAccess = true → (guard.perform task).semaphores = [] := by
  cases task with
  | addUnlockSemaphore semaphore =>
      by_cases h : guard.hasAccess = true
      · simpa [FileSystemGuard.perform, FileSystemGuard.addUnlockSemaphore,
          FileSystemGuard.checkSemaphore, h] using haccess h
      · simp [FileSystemGuard.perform, FileSystemGuard.addUnlockSemaphore,
          FileSystemGuard.checkSemaphore, h]
  | didUnlock =>
      rw [FileSystemGuard.perform, FileSystemGuard.didUnlock_eq]
      exact fun _ => rfl
  | didLock =>
      intro h
      cases h

variable {s s' : GuardedOpening}

theorem Kept.beginOpen (h : s.Kept) (isMainThread : Bool) : (s.beginOpen isMainThread).Kept where
  places := by
    rw [GuardedOpening.places]
    simp only [GuardedOpening.beginOpen, List.filterMap_append, List.range_succ]
    rw [← List.append_assoc]
    exact h.places.append_right _
  access := h.access
  threads := by
    have hthreads := h.threads.append_right [s.next]
    simp only [GuardedOpening.beginOpen, List.range_succ]
    cases isMainThread with
    | false =>
        refine List.Perm.trans ?_ hthreads
        simp only [Bool.false_eq_true, ↓reduceIte, List.append_assoc]
        exact List.Perm.append_left _ (by
          simpa using @List.perm_append_comm _ [s.next] (s.polling ++ s.opened))
    | true =>
        refine List.Perm.trans ?_ hthreads
        simp only [↓reduceIte, List.append_assoc]
        exact List.Perm.append_left _ (List.Perm.append_left _ List.perm_append_comm)

/-- A thread goes on. -/
theorem perm_moved {semaphore : ℕ} {threads : List ℕ} (others : List ℕ)
    (h : semaphore ∈ threads) :
    (threads.erase semaphore ++ (others ++ [semaphore])).Perm (threads ++ others) := by
  rw [← List.append_assoc]
  exact List.perm_append_comm.trans ((List.perm_cons_erase h).symm.append_right others)

/-- Every step keeps every semaphore in one place. -/
theorem Kept.step (h : s.Kept) (hstep : Step s s') : s'.Kept := by
  cases hstep with
  | beginOpen isMainThread => exact h.beginOpen isMainThread
  | didUnlock =>
      refine ⟨?_, h.access, h.threads⟩
      have hplaces := h.places
      rw [GuardedOpening.places] at hplaces ⊢
      simpa [List.filterMap_append, List.filterMap_cons, GuardTask.semaphore] using hplaces
  | didLock =>
      refine ⟨?_, h.access, h.threads⟩
      have hplaces := h.places
      rw [GuardedOpening.places] at hplaces ⊢
      simpa [List.filterMap_append, List.filterMap_cons, GuardTask.semaphore] using hplaces
  | perform task rest hfirst =>
      refine ⟨?_, perform_access s.guard task h.access, h.threads⟩
      have hplaces := h.places
      rw [GuardedOpening.places, hfirst] at hplaces
      exact (perform_places s.guard task rest h.access).trans hplaces
  | wake semaphore hwaits hsignalled =>
      refine ⟨h.places, h.access, List.Perm.trans ?_ h.threads⟩
      simpa only [List.append_assoc] using perm_moved (s.polling ++ s.opened) hwaits
  | seesAccess semaphore hpolls haccess =>
      refine ⟨h.places, h.access, List.Perm.trans ?_ h.threads⟩
      simpa only [List.append_assoc] using (perm_moved s.opened hpolls).append_left s.waiting

theorem Kept.initial : Kept {} := ⟨List.Perm.refl _, fun _ => rfl, List.Perm.refl _⟩

theorem kept_of_runs (hruns : Runs {} s) : s.Kept := by
  induction hruns with
  | refl => exact Kept.initial
  | tail _ hstep ih => exact ih.step hstep

/-! ## No wake-up is lost -/

/-- The queue does all its work and then hears that the device was unlocked. -/
def afterUnlock (s : GuardedOpening) : GuardedOpening :=
  { s with
    guard := (s.queue ++ [GuardTask.didUnlock]).foldl FileSystemGuard.perform s.guard
    queue := [] }

theorem runs_afterUnlock (s : GuardedOpening) : Runs s s.afterUnlock := by
  have hwork : ∀ (tasks : List GuardTask) (guard : FileSystemGuard),
      Runs { s with guard := guard, queue := tasks }
        { s with guard := tasks.foldl FileSystemGuard.perform guard, queue := [] } := by
    intro tasks
    induction tasks with
    | nil => exact fun guard => .refl
    | cons task rest ih => exact fun guard => .head (.perform _ task rest rfl) (ih _)
  exact .head (.didUnlock s) (hwork _ s.guard)

/-- In every run a semaphore is signalled at most once; when the queue has no more work and
there is access, every waiting thread has been signalled; and whatever is queued, the next time
that the device is unlocked every waiting thread will be. -/
theorem served_of_runs (hruns : Runs {} s) :
    s.guard.signalled.Nodup ∧
      (s.queue = [] → s.guard.hasAccess = true →
        ∀ semaphore ∈ s.waiting, semaphore ∈ s.guard.signalled) ∧
      ∀ semaphore ∈ s.waiting, semaphore ∈ s.afterUnlock.guard.signalled := by
  have hserved : ∀ {s : GuardedOpening}, s.Kept → s.queue = [] → s.guard.hasAccess = true →
      ∀ semaphore ∈ s.waiting, semaphore ∈ s.guard.signalled := by
    intro s h hqueue haccess semaphore hwaits
    have hplaces := h.places
    rw [places, hqueue, h.access haccess, List.filterMap_nil, List.append_nil,
      List.append_nil] at hplaces
    rw [hplaces.mem_iff, ← h.threads.mem_iff]
    exact List.mem_append_left _ (List.mem_append_left _ hwaits)
  have hkept := kept_of_runs hruns
  refine ⟨?_, hserved hkept, ?_⟩
  · have hnodup := hkept.places.nodup_iff.mpr List.nodup_range
    exact (List.nodup_append.mp (List.nodup_append.mp hnodup).1).1
  · refine hserved (kept_of_runs (hruns.trans (runs_afterUnlock s))) rfl ?_
    rw [afterUnlock, List.foldl_append]
    exact congrArg FileSystemGuard.hasAccess (FileSystemGuard.didUnlock_eq _)

section Example

/-- The device was locked before a thread left its semaphore. -/
def lockedOpening : GuardedOpening where
  guard := ⟨false, [0], []⟩
  next := 1
  waiting := [0]

theorem lockedOpening_served : lockedOpening.guard.signalled = [] ∧
    0 ∈ lockedOpening.afterUnlock.guard.signalled := by
  have hlock : Runs {} { ({} : GuardedOpening) with queue := [.didLock] } :=
    .single (.didLock {})
  have hlocked := hlock.tail (.perform _ .didLock [] rfl)
  have hbegun := hlocked.tail (.beginOpen _ false)
  have hruns : Runs {} lockedOpening := hbegun.tail (.perform _ (.addUnlockSemaphore 0) [] rfl)
  exact ⟨rfl, (served_of_runs hruns).2.2 0 List.mem_cons_self⟩

end Example

end GuardedOpening

end SafeWallet
