/-
# Processes that share a state

A process performs atomic actions on a state that it shares with other processes.
Between two of its actions the others may have acted, so what it has read may be
out of date; and a crash ends all processes while the state stays.

A process is sound when each of its actions is allowed by a guarantee, whatever
the others do in between as long as they respect a rely condition. Soundness is
proved function by function, and two rules turn it into invariants of whole runs:
one for processes that interleave freely, one for runs in which a process is only
started when no other is at work.
-/

import Mathlib.Logic.Relation
import SafeWallet.Base.Trapping

namespace SafeWallet

/-- A process over states `σ`. An action sees the state and one answer `ι` of the
outside world, changes the state and continues; its label says where it stands. -/
inductive Process (σ ι Λ : Type) (α : Type) : Type
  | pure (a : α)
  | trap (reason : Trap)
  | act (label : Λ) (effect : σ → ι → σ) (next : σ → ι → Process σ ι Λ α)

namespace Process

variable {σ ι Λ α β : Type}

/-- Sequencing stops at a trap. -/
def bind : Process σ ι Λ α → (α → Process σ ι Λ β) → Process σ ι Λ β
  | pure a, k => k a
  | trap reason, _ => trap reason
  | act label effect next, k => act label effect fun s i => (next s i).bind k

instance : Monad (Process σ ι Λ) where
  pure := Process.pure
  bind := Process.bind

@[simp]
theorem pure_eq (a : α) : (Pure.pure a : Process σ ι Λ α) = .pure a := rfl

@[simp]
theorem pure_bind (a : α) (k : α → Process σ ι Λ β) : (Process.pure a >>= k) = k a := rfl

@[simp]
theorem trap_bind (reason : Trap) (k : α → Process σ ι Λ β) :
    (Process.trap reason >>= k) = .trap reason := rfl

@[simp]
theorem act_bind (label : Λ) (effect : σ → ι → σ) (next : σ → ι → Process σ ι Λ α)
    (k : α → Process σ ι Λ β) :
    (Process.act label effect next >>= k) = .act label effect fun s i => next s i >>= k := rfl

/-- The process has stopped at a trap. -/
def isTrap : Process σ ι Λ α → Bool
  | trap _ => true
  | _ => false

/-- The process has ended. -/
def isPure : Process σ ι Λ α → Bool
  | pure _ => true
  | _ => false

theorem eq_pure_of_isPure {p : Process σ ι Λ Unit} (h : p.isPure = true) : p = .pure () := by
  cases p with
  | pure a => rfl
  | trap reason => cases h
  | act label effect next => cases h

/-- One action with a result. -/
def perform (label : Λ) (f : σ → ι → α × σ) : Process σ ι Λ α :=
  .act label (fun s i => (f s i).2) fun s i => .pure (f s i).1

/-- One action that leaves the state alone. -/
def query (label : Λ) (f : σ → ι → α) : Process σ ι Λ α := perform label fun s i => (f s i, s)

/-- One action without a result. -/
def update (label : Λ) (f : σ → σ) : Process σ ι Λ Unit := perform label fun s _ => ((), f s)

/-- A computation that touches nothing shared. -/
def lift : Trapping α → Process σ ι Λ α
  | .ok a => .pure a
  | .error reason => .trap reason

/-- A loop over a list. -/
def each : List β → (β → Process σ ι Λ Unit) → Process σ ι Λ Unit
  | [], _ => .pure ()
  | b :: rest, f => f b >>= fun _ => each rest f

/-! ## Running alone -/

/-- Run to the end with nobody else acting and one and the same outside world. -/
def alone (i : ι) : Process σ ι Λ α → σ → Trapping α × σ
  | pure a, s => (.ok a, s)
  | trap reason, s => (.error reason, s)
  | act _ effect next, s => (next s i).alone i (effect s i)

/-- Run to the end with nobody else acting. What the outside world is like depends on
where the process stands. -/
def answered (answers : Λ → ι) : Process σ ι Λ α → σ → Trapping α × σ
  | pure a, s => (.ok a, s)
  | trap reason, s => (.error reason, s)
  | act label effect next, s =>
    (next s (answers label)).answered answers (effect s (answers label))

/-- The next `n` actions with nobody else acting. -/
def advance (i : ι) : ℕ → Process σ ι Λ α → σ → Process σ ι Λ α × σ
  | n + 1, act _ effect next, s => advance i n (next s i) (effect s i)
  | _, p, s => (p, s)

/-- A guard holds at the next `n` actions. -/
def Allowed (guard : σ → Λ → Prop) (i : ι) : ℕ → Process σ ι Λ α → σ → Prop
  | n + 1, act label effect next, s => guard s label ∧ Allowed guard i n (next s i) (effect s i)
  | _, _, _ => True

instance (guard : σ → Λ → Prop) [∀ s label, Decidable (guard s label)] (i : ι) (n : ℕ)
    (p : Process σ ι Λ α) (s : σ) : Decidable (p.Allowed guard i n s) :=
  decideAllowed n p s
where
  /-- One action after the other. -/
  decideAllowed : (n : ℕ) → (p : Process σ ι Λ α) → (s : σ) → Decidable (p.Allowed guard i n s)
    | 0, _, _ => isTrue (by simp [Allowed])
    | _ + 1, pure _, _ => isTrue trivial
    | _ + 1, trap _, _ => isTrue trivial
    | n + 1, act _ effect next, s =>
      haveI := decideAllowed n (next s i) (effect s i)
      inferInstanceAs (Decidable (_ ∧ _))

theorem allowed_of_forall {guard : σ → Λ → Prop} (h : ∀ s label, guard s label) (i : ι) (n : ℕ)
    (p : Process σ ι Λ α) (s : σ) : p.Allowed guard i n s := by
  induction n generalizing p s with
  | zero => cases p <;> trivial
  | succ n ih =>
      cases p with
      | pure a => trivial
      | trap reason => trivial
      | act label effect next => exact ⟨h s label, ih _ _⟩

/-- Some of the actions of a process, with nobody else acting and whatever answers. -/
inductive Progress : Process σ ι Λ α → σ → Process σ ι Λ α → σ → Prop
  | refl (p : Process σ ι Λ α) (s : σ) : Progress p s p s
  | act {label : Λ} {effect : σ → ι → σ} {next : σ → ι → Process σ ι Λ α} {s s' : σ}
      {p : Process σ ι Λ α} (i : ι) (rest : Progress (next s i) (effect s i) p s') :
      Progress (.act label effect next) s p s'

section Alone

variable {i : ι} {s : σ}

@[simp]
theorem alone_pure (a : α) : (Process.pure a : Process σ ι Λ α).alone i s = (.ok a, s) := rfl

@[simp]
theorem alone_trap (reason : Trap) :
    (Process.trap reason : Process σ ι Λ α).alone i s = (.error reason, s) := rfl

/-- A sequence runs its second part where the first one ended. -/
theorem alone_bind_of_ok {p : Process σ ι Λ α} {k : α → Process σ ι Λ β} {a : α} {s' : σ}
    (h : p.alone i s = (.ok a, s')) : (p >>= k).alone i s = (k a).alone i s' := by
  induction p generalizing s with
  | pure b =>
      cases h
      rfl
  | trap reason => cases h
  | act label effect next ih => exact ih s i h

theorem alone_bind_of_error {p : Process σ ι Λ α} {k : α → Process σ ι Λ β} {reason : Trap}
    {s' : σ} (h : p.alone i s = (.error reason, s')) :
    (p >>= k).alone i s = (.error reason, s') := by
  induction p generalizing s with
  | pure b => cases h
  | trap reason =>
      cases h
      rfl
  | act label effect next ih => exact ih s i h

theorem alone_bind (p : Process σ ι Λ α) (k : α → Process σ ι Λ β) :
    (p >>= k).alone i s =
      match p.alone i s with
      | (.ok a, s') => (k a).alone i s'
      | (.error reason, s') => (.error reason, s') := by
  cases h : p.alone i s with
  | mk result s' =>
      cases result with
      | error reason => exact alone_bind_of_error h
      | ok a => exact alone_bind_of_ok h

@[simp]
theorem alone_lift (t : Trapping α) : (lift t : Process σ ι Λ α).alone i s = (t, s) := by
  cases t <;> rfl

/-- A process runs to its end with nobody else acting, and a guard holds at its actions. -/
structure Completes (guard : σ → Λ → Prop) (i : ι) (p : Process σ ι Λ α) (s : σ) (a : α)
    (s' : σ) : Prop where
  alone : p.alone i s = (.ok a, s')
  allowed : ∀ n, p.Allowed guard i n s

section Completes

variable {guard : σ → Λ → Prop} {a : α} {b : β} {s' s'' : σ} {p : Process σ ι Λ α}

theorem Completes.act {label : Λ} {effect : σ → ι → σ} {next : σ → ι → Process σ ι Λ α}
    (h : (Process.act label effect next).Completes guard i s a s') :
    guard s label ∧ (next s i).Completes guard i (effect s i) a s' :=
  ⟨(h.allowed 1).1, h.alone, fun n => (h.allowed (n + 1)).2⟩

theorem Completes.perform {label : Λ} {f : σ → ι → α × σ} (h : guard s label) :
    (Process.perform label f).Completes guard i s (f s i).1 (f s i).2 := by
  refine ⟨rfl, fun n => ?_⟩
  cases n with
  | zero => trivial
  | succ n => exact ⟨h, by cases n <;> trivial⟩

/-- A sequence is at the actions of its two parts. -/
theorem Completes.bind {k : α → Process σ ι Λ β} (h : p.Completes guard i s a s')
    (h' : (k a).Completes guard i s' b s'') : (p >>= k).Completes guard i s b s'' := by
  refine ⟨(alone_bind_of_ok h.alone).trans h'.alone, ?_⟩
  induction p generalizing s with
  | pure c =>
      cases h.alone
      exact h'.allowed
  | trap reason => cases h.alone
  | act label effect next ih =>
      intro n
      cases n with
      | zero => trivial
      | succ n => exact ⟨h.act.1, ih s i h.act.2 n⟩

/-- The guard is asked for no more actions than there are. -/
theorem Completes.of_advance {n : ℕ} (h : p.advance i n s = (.pure a, s'))
    (hallowed : p.Allowed guard i n s) : p.Completes guard i s a s' := by
  induction n generalizing p s with
  | zero =>
      cases p <;> cases h
      exact ⟨rfl, fun n => by cases n <;> trivial⟩
  | succ n ih =>
      cases p with
      | pure c =>
          cases h
          exact ⟨rfl, fun n => by cases n <;> trivial⟩
      | trap reason => cases h
      | act label effect next =>
          obtain ⟨halone, hrest⟩ := ih h hallowed.2
          refine ⟨halone, fun m => ?_⟩
          cases m with
          | zero => trivial
          | succ m => exact ⟨hallowed.1, hrest m⟩

end Completes

theorem progress_of_alone {p : Process σ ι Λ α} {a : α} {s' : σ}
    (h : p.alone i s = (.ok a, s')) : p.Progress s (.pure a) s' := by
  induction p generalizing s with
  | pure b =>
      cases h
      exact .refl _ _
  | trap reason => cases h
  | act label effect next ih => exact .act i (ih s i h)

@[simp]
theorem alone_perform_bind (label : Λ) (f : σ → ι → α × σ) (k : α → Process σ ι Λ β) :
    (perform label f >>= k).alone i s = (k (f s i).1).alone i (f s i).2 := rfl

@[simp]
theorem alone_query_bind (label : Λ) (f : σ → ι → α) (k : α → Process σ ι Λ β) :
    (query label f >>= k).alone i s = (k (f s i)).alone i s := rfl

@[simp]
theorem alone_update_bind (label : Λ) (f : σ → σ) (k : Unit → Process σ ι Λ β) :
    (update label f >>= k).alone i s = (k ()).alone i (f s) := rfl

@[simp]
theorem alone_update (label : Λ) (f : σ → σ) :
    (update label f : Process σ ι Λ Unit).alone i s = (.ok (), f s) := rfl

/-- A loop folds what its rounds do over the state. -/
theorem alone_each {bs : List β} {f : β → Process σ ι Λ Unit} {g : β → σ → σ}
    (h : ∀ b s, (f b).alone i s = (.ok (), g b s)) :
    (each bs f).alone i s = (.ok (), bs.foldl (fun s b => g b s) s) := by
  induction bs generalizing s with
  | nil => rfl
  | cons b rest ih =>
      rw [each, alone_bind_of_ok (h b s)]
      exact ih

end Alone

section Answered

variable {answers : Λ → ι} {s : σ}

@[simp]
theorem answered_pure (a : α) :
    (Process.pure a : Process σ ι Λ α).answered answers s = (.ok a, s) := rfl

@[simp]
theorem answered_query_bind (label : Λ) (f : σ → ι → α) (k : α → Process σ ι Λ β) :
    (query label f >>= k).answered answers s = (k (f s (answers label))).answered answers s := rfl

@[simp]
theorem answered_update_bind (label : Λ) (f : σ → σ) (k : Unit → Process σ ι Λ β) :
    (update label f >>= k).answered answers s = (k ()).answered answers (f s) := rfl

theorem answered_bind (p : Process σ ι Λ α) (k : α → Process σ ι Λ β) :
    (p >>= k).answered answers s =
      match p.answered answers s with
      | (.ok a, s') => (k a).answered answers s'
      | (.error reason, s') => (.error reason, s') := by
  induction p generalizing s with
  | pure a => rfl
  | trap reason => rfl
  | act label effect next ih => exact ih s (answers label)

end Answered

end Process

/-! ## Rely and guarantee -/

/-- What the others may do between two actions, what an action may do, and where
actions are allowed at all. -/
structure Discipline (σ Λ : Type) where
  rely : σ → σ → Prop
  guarantee : σ → σ → Prop
  guard : σ → Λ → Prop
  rely_refl : ∀ s, rely s s
  rely_trans : ∀ {s s' s''}, rely s s' → rely s' s'' → rely s s''

namespace Process

variable {σ ι Λ α β : Type} (d : Discipline σ Λ)

/-- Started from `s`, every guarded action keeps the guarantee, and the result
satisfies `post`, whatever the others do in between. -/
def Sound : Process σ ι Λ α → (α → σ → Prop) → σ → Prop
  | pure a, post, s => ∀ s', d.rely s s' → post a s'
  | trap _, _, _ => True
  | act label effect next, post, s =>
      ∀ s' i, d.rely s s' → d.guard s' label →
        d.guarantee s' (effect s' i) ∧ (next s' i).Sound post (effect s' i)

variable {d} {p : Process σ ι Λ α} {post : α → σ → Prop} {s s' : σ}

namespace Sound

/-- The others do not spoil soundness. -/
theorem of_rely (h : p.Sound d post s) (hrely : d.rely s s') : p.Sound d post s' := by
  cases p with
  | pure a => exact fun s'' h' => h s'' (d.rely_trans hrely h')
  | trap reason => trivial
  | act label effect next => exact fun s'' i h' => h s'' i (d.rely_trans hrely h')

theorem mono {post' : α → σ → Prop} (h : p.Sound d post s)
    (himp : ∀ a s', post a s' → post' a s') : p.Sound d post' s := by
  induction p generalizing s with
  | pure a => exact fun s' h' => himp a s' (h s' h')
  | trap reason => trivial
  | act label effect next ih =>
      intro s' i hrely hguard
      obtain ⟨hguarantee, hnext⟩ := h s' i hrely hguard
      exact ⟨hguarantee, ih s' i hnext⟩

/-- What nobody destroys is still there at the end. -/
theorem frame {inv : σ → Prop} (h : p.Sound d post s)
    (hstable : ∀ s s', d.rely s s' → inv s → inv s')
    (hkept : ∀ s s', d.guarantee s s' → inv s → inv s') (hinv : inv s) :
    p.Sound d (fun a s' => post a s' ∧ inv s') s := by
  induction p generalizing s with
  | pure a => exact fun s' hrely => ⟨h s' hrely, hstable s s' hrely hinv⟩
  | trap reason => trivial
  | act label effect next ih =>
      intro s' i hrely hguard
      obtain ⟨hguarantee, hnext⟩ := h s' i hrely hguard
      exact ⟨hguarantee, ih s' i hnext (hkept _ _ hguarantee (hstable _ _ hrely hinv))⟩

/-- A sequence is sound when its second part is, wherever the first one ends. -/
theorem bind {k : α → Process σ ι Λ β} {post : β → σ → Prop}
    (h : p.Sound d (fun a s' => (k a).Sound d post s') s) : (p >>= k).Sound d post s := by
  induction p generalizing s with
  | pure a => exact h s (d.rely_refl s)
  | trap reason => trivial
  | act label effect next ih =>
      intro s' i hrely hguard
      obtain ⟨hguarantee, hnext⟩ := h s' i hrely hguard
      exact ⟨hguarantee, ih s' i hnext⟩

theorem perform {label : Λ} {f : σ → ι → α × σ}
    (h : ∀ s' i, d.rely s s' → d.guard s' label →
      d.guarantee s' (f s' i).2 ∧ ∀ s'', d.rely (f s' i).2 s'' → post (f s' i).1 s'') :
    (Process.perform label f).Sound d post s := h

theorem lift {t : Trapping α} (h : ∀ a, t = .ok a → ∀ s', d.rely s s' → post a s') :
    (Process.lift t : Process σ ι Λ α).Sound d post s := by
  cases t with
  | error reason => trivial
  | ok a => exact h a rfl

/-- A loop keeps what each of its rounds keeps. -/
theorem each {inv : σ → Prop} {bs : List β} {f : β → Process σ ι Λ Unit}
    (hstable : ∀ s s', d.rely s s' → inv s → inv s')
    (hround : ∀ b ∈ bs, ∀ s, inv s → (f b).Sound d (fun _ => inv) s) (hinv : inv s) :
    (Process.each bs f).Sound d (fun _ => inv) s := by
  induction bs generalizing s with
  | nil => exact fun s' hrely => hstable s s' hrely hinv
  | cons b rest ih =>
      apply bind
      apply (hround b List.mem_cons_self s hinv).mono
      intro _ s' hinv'
      exact ih (fun b' hmem => hround b' (List.mem_cons_of_mem b hmem)) hinv'

end Sound

end Process

/-! ## Systems -/

/-- What can happen around processes: one is started, something else moves the
state, or everything crashes and is booted again. -/
structure System (σ ι Λ : Type) where
  starts : σ → Process σ ι Λ Unit → σ → Prop
  moves : σ → σ → Prop
  restart : σ → σ
  boot : Process σ ι Λ Unit

namespace System

variable {σ ι Λ : Type}

/-- The shared state and the processes at work. -/
structure Config (σ ι Λ : Type) where
  state : σ
  running : List (Process σ ι Λ Unit)

/-- A trap of one process stops them all. -/
def Config.Alive (c : Config σ ι Λ) : Prop := ∀ p ∈ c.running, p.isTrap = false

/-- All processes have ended. -/
def Config.Idle (c : Config σ ι Λ) : Prop := ∀ p ∈ c.running, p = .pure ()

/-- One step of a run. `guard` restricts where actions are taken, `mayStart` where
processes are started. -/
inductive Step (system : System σ ι Λ) (guard : σ → Λ → Prop)
    (mayStart : Config σ ι Λ → Prop) : Config σ ι Λ → Config σ ι Λ → Prop
  | run {s : σ} {before after : List (Process σ ι Λ Unit)} {label : Λ} {effect : σ → ι → σ}
      {next : σ → ι → Process σ ι Λ Unit} (i : ι)
      (alive : Config.Alive ⟨s, before ++ .act label effect next :: after⟩)
      (allowed : guard s label) :
      Step system guard mayStart ⟨s, before ++ .act label effect next :: after⟩
        ⟨effect s i, before ++ next s i :: after⟩
  | start {s s' : σ} {running : List (Process σ ι Λ Unit)} {p : Process σ ι Λ Unit}
      (alive : Config.Alive ⟨s, running⟩) (allowed : mayStart ⟨s, running⟩)
      (starts : system.starts s p s') :
      Step system guard mayStart ⟨s, running⟩ ⟨s', p :: running⟩
  | move {s s' : σ} {running : List (Process σ ι Λ Unit)}
      (alive : Config.Alive ⟨s, running⟩) (moves : system.moves s s') :
      Step system guard mayStart ⟨s, running⟩ ⟨s', running⟩
  | crash {s : σ} {running : List (Process σ ι Λ Unit)} :
      Step system guard mayStart ⟨s, running⟩ ⟨system.restart s, [system.boot]⟩

/-- Runs of any length. -/
abbrev Runs (system : System σ ι Λ) (guard : σ → Λ → Prop) (mayStart : Config σ ι Λ → Prop) :
    Config σ ι Λ → Config σ ι Λ → Prop :=
  Relation.ReflTransGen (system.Step guard mayStart)

variable {system : System σ ι Λ} {d : Discipline σ Λ} {inv : σ → Prop}

/-- A run under a guard is a run under a weaker one. -/
theorem Runs.mono_guard {guard guard' : σ → Λ → Prop} {mayStart : Config σ ι Λ → Prop}
    (hguard : ∀ s label, guard s label → guard' s label) {c c' : Config σ ι Λ}
    (hruns : system.Runs guard mayStart c c') : system.Runs guard' mayStart c c' := by
  refine hruns.lift id fun c c' hstep => ?_
  cases hstep with
  | run i alive allowed => exact .run i alive (hguard _ _ allowed)
  | start alive allowed starts => exact .start alive allowed starts
  | move alive moves => exact .move alive moves
  | crash => exact .crash

/-- All processes at work are sound. -/
def Config.Sound (d : Discipline σ Λ) (c : Config σ ι Λ) : Prop :=
  ∀ p ∈ c.running, p.Sound d (fun _ _ => True) c.state

/-- Processes that interleave freely keep an invariant if each of them is sound and
what one guarantees is what the others rely on. -/
theorem Runs.invariant {mayStart : Config σ ι Λ → Prop}
    (hmutual : ∀ s s', d.guarantee s s' → d.rely s s')
    (hstable : ∀ s s', d.rely s s' → inv s → inv s')
    (hstarts : ∀ s p s', system.starts s p s' → inv s →
      d.rely s s' ∧ p.Sound d (fun _ _ => True) s')
    (hmoves : ∀ s s', system.moves s s' → d.rely s s')
    (hrestart : ∀ s, inv s → inv (system.restart s))
    (hboot : ∀ s, inv s → system.boot.Sound d (fun _ _ => True) (system.restart s))
    {c c' : Config σ ι Λ} (hruns : system.Runs d.guard mayStart c c')
    (hinv : inv c.state) (hsound : c.Sound d) : inv c'.state ∧ c'.Sound d := by
  induction hruns with
  | refl => exact ⟨hinv, hsound⟩
  | tail _ hstep ih =>
      obtain ⟨hinv, hsound⟩ := ih
      cases hstep with
      | @run s before after label effect next i alive allowed =>
          have hact := hsound (.act label effect next) (by simp)
          obtain ⟨hguarantee, hnext⟩ := hact s i (d.rely_refl s) allowed
          have hrely := hmutual _ _ hguarantee
          refine ⟨hstable _ _ hrely hinv, ?_⟩
          intro p hp
          rcases List.mem_append.mp hp with hp | hp
          · exact (hsound p (List.mem_append_left _ hp)).of_rely hrely
          · rcases List.mem_cons.mp hp with rfl | hp
            · exact hnext
            · apply (hsound p _).of_rely hrely
              exact List.mem_append_right _ (List.mem_cons_of_mem _ hp)
      | start alive allowed starts =>
          obtain ⟨hrely, hp⟩ := hstarts _ _ _ starts hinv
          refine ⟨hstable _ _ hrely hinv, ?_⟩
          intro q hq
          rcases List.mem_cons.mp hq with rfl | hq
          · exact hp
          · exact (hsound q hq).of_rely hrely
      | move alive moves =>
          have hrely := hmoves _ _ moves
          exact ⟨hstable _ _ hrely hinv, fun p hp => (hsound p hp).of_rely hrely⟩
      | crash =>
          refine ⟨hrestart _ hinv, ?_⟩
          intro p hp
          cases List.mem_singleton.mp hp
          exact hboot _ hinv

/-- At most one process is still at work. -/
def Config.Sequential (c : Config σ ι Λ) : Prop :=
  c.running.Pairwise fun p q => p = .pure () ∨ q = .pure ()

theorem Config.Idle.sequential {s : σ} {running : List (Process σ ι Λ Unit)}
    (h : Config.Idle ⟨s, running⟩) (p : Process σ ι Λ Unit) (s' : σ) :
    Config.Sequential ⟨s', p :: running⟩ := by
  refine List.pairwise_cons.mpr ⟨fun q hq => .inr (h q hq), ?_⟩
  exact List.pairwise_of_forall_mem_list fun q hq _ _ => .inl (h q hq)

/-- The process that acts is the one still at work. -/
theorem Config.Sequential.others {s : σ} {before after : List (Process σ ι Λ Unit)} {label : Λ}
    {effect : σ → ι → σ} {next : σ → ι → Process σ ι Λ Unit}
    (h : Config.Sequential ⟨s, before ++ .act label effect next :: after⟩) :
    ∀ p ∈ before ++ after, p = .pure () := by
  obtain ⟨-, hafter, hbefore⟩ := List.pairwise_append.mp h
  intro p hp
  rcases List.mem_append.mp hp with hp | hp
  · simpa using hbefore p hp _ List.mem_cons_self
  · simpa using (List.pairwise_cons.mp hafter).1 p hp

/-- Processes that are only started when no other is at work keep an invariant if
each of them does so from a state where it holds; between two actions of a process
only the surroundings move. -/
theorem Runs.sequential_invariant
    (hguarantee : ∀ s s', d.guarantee s s' → inv s → inv s')
    (hstable : ∀ s s', d.rely s s' → inv s → inv s')
    (hstarts : ∀ s p s', system.starts s p s' → inv s →
      inv s' ∧ p.Sound d (fun _ _ => True) s')
    (hmoves : ∀ s s', system.moves s s' → d.rely s s')
    (hrestart : ∀ s, inv s → inv (system.restart s))
    (hboot : ∀ s, inv s → system.boot.Sound d (fun _ _ => True) (system.restart s))
    {c c' : Config σ ι Λ} (hruns : system.Runs d.guard Config.Idle c c')
    (hinv : inv c.state) (hidle : c.Idle) : inv c'.state := by
  suffices h : inv c'.state ∧ c'.Sequential ∧ c'.Sound d from h.1
  have hpure : ∀ s, (Process.pure () : Process σ ι Λ Unit).Sound d (fun _ _ => True) s :=
    fun _ _ _ => trivial
  induction hruns with
  | refl =>
      refine ⟨hinv, List.pairwise_of_forall_mem_list fun p hp _ _ => .inl (hidle p hp), ?_⟩
      intro p hp
      rw [hidle p hp]
      exact hpure _
  | tail _ hstep ih =>
      obtain ⟨hinv, hseq, hsound⟩ := ih
      cases hstep with
      | @run s before after label effect next i alive allowed =>
          have hothers := hseq.others
          have hact := hsound (.act label effect next) (by simp)
          obtain ⟨hact, hnext⟩ := hact s i (d.rely_refl s) allowed
          refine ⟨hguarantee _ _ hact hinv, ?_, ?_⟩
          · have hrest : (before ++ after).Pairwise
                fun p q : Process σ ι Λ Unit => p = .pure () ∨ q = .pure () :=
              List.pairwise_of_forall_mem_list fun p hp _ _ => .inl (hothers p hp)
            refine (List.pairwise_middle Or.symm).mpr ?_
            exact List.pairwise_cons.mpr ⟨fun q hq => .inr (hothers q hq), hrest⟩
          · intro p hp
            rcases List.mem_cons.mp (List.perm_middle.mem_iff.mp hp) with rfl | hp
            · exact hnext
            · rw [hothers p hp]
              exact hpure _
      | start alive allowed starts =>
          obtain ⟨hinv', hp⟩ := hstarts _ _ _ starts hinv
          refine ⟨hinv', allowed.sequential _ _, ?_⟩
          intro q hq
          rcases List.mem_cons.mp hq with rfl | hq
          · exact hp
          · rw [allowed q hq]
            exact hpure _
      | move alive moves =>
          have hrely := hmoves _ _ moves
          exact ⟨hstable _ _ hrely hinv, hseq, fun p hp => (hsound p hp).of_rely hrely⟩
      | crash =>
          refine ⟨hrestart _ hinv, List.pairwise_singleton _ _, ?_⟩
          intro p hp
          cases List.mem_singleton.mp hp
          exact hboot _ hinv

/-! ## Concrete runs -/

section Concrete

variable {guard : σ → Λ → Prop} {mayStart : Config σ ι Λ → Prop} {s s' : σ}
  {running : List (Process σ ι Λ Unit)}

theorem Config.alive_nil : Config.Alive (⟨s, []⟩ : Config σ ι Λ) := fun _ hp => nomatch hp

theorem Config.Alive.cons {p : Process σ ι Λ Unit} (h : Config.Alive ⟨s, running⟩)
    (hp : p.isTrap = false) : Config.Alive ⟨s, p :: running⟩ := by
  intro q hq
  rcases List.mem_cons.mp hq with rfl | hq
  · exact hp
  · exact h q hq

/-- One of the processes takes its next `n` actions. -/
theorem Runs.advance_at {i : ι} {n : ℕ} {p : Process σ ι Λ Unit}
    {before after : List (Process σ ι Λ Unit)} (h : ∀ q ∈ before ++ after, q.isTrap = false)
    (hallowed : p.Allowed guard i n s) :
    system.Runs guard mayStart ⟨s, before ++ p :: after⟩
      ⟨(p.advance i n s).2, before ++ (p.advance i n s).1 :: after⟩ := by
  induction n generalizing p s with
  | zero => exact .refl
  | succ n ih =>
      cases p with
      | pure a => exact .refl
      | trap reason => exact .refl
      | act label effect next =>
          have halive : Config.Alive ⟨s, before ++ .act label effect next :: after⟩ := by
            intro q hq
            rcases List.mem_cons.mp (List.perm_middle.mem_iff.mp hq) with rfl | hq
            · rfl
            · exact h q hq
          have hstep : system.Step guard mayStart ⟨s, before ++ .act label effect next :: after⟩
              ⟨effect s i, before ++ next s i :: after⟩ := .run i halive hallowed.1
          exact .head hstep (ih hallowed.2)

/-- The process started last takes its next `n` actions. -/
theorem Runs.advance {i : ι} {n : ℕ} {p : Process σ ι Λ Unit} (h : Config.Alive ⟨s, running⟩)
    (hallowed : p.Allowed guard i n s) :
    system.Runs guard mayStart ⟨s, p :: running⟩
      ⟨(p.advance i n s).2, (p.advance i n s).1 :: running⟩ :=
  @Runs.advance_at _ _ _ _ _ _ _ _ _ _ [] running h hallowed

/-- A process is started and takes its first `n` actions. -/
theorem Runs.call {p : Process σ ι Λ Unit} (i : ι) (n : ℕ) (h : Config.Alive ⟨s, running⟩)
    (hmay : mayStart ⟨s, running⟩) (hstarts : system.starts s p s')
    (hallowed : p.Allowed guard i n s') :
    system.Runs guard mayStart ⟨s, running⟩
      ⟨(p.advance i n s').2, (p.advance i n s').1 :: running⟩ :=
  .head (.start h hmay hstarts) (Runs.advance h hallowed)

/-- The process started last runs to its end. -/
theorem Runs.completes {i : ι} {p : Process σ ι Λ Unit} (h : Config.Alive ⟨s, running⟩)
    (hrun : p.Completes guard i s () s') :
    system.Runs guard mayStart ⟨s, p :: running⟩ ⟨s', .pure () :: running⟩ := by
  induction p generalizing s with
  | pure a =>
      cases hrun.alone
      exact .refl
  | trap reason => cases hrun.alone
  | act label effect next ih =>
      have halive : Config.Alive ⟨s, [] ++ .act label effect next :: running⟩ :=
        Config.Alive.cons h rfl
      have hstep : system.Step guard mayStart ⟨s, .act label effect next :: running⟩
          ⟨effect s i, next s i :: running⟩ := .run i halive hrun.act.1
      exact .head hstep (ih s i h hrun.act.2)

/-- Everything crashes, and the system takes the first `n` actions of its start. -/
theorem Runs.relaunch (i : ι) (n : ℕ) (s : σ) (running : List (Process σ ι Λ Unit))
    (hallowed : system.boot.Allowed guard i n (system.restart s)) :
    system.Runs guard mayStart ⟨s, running⟩
      ⟨(system.boot.advance i n (system.restart s)).2,
        [(system.boot.advance i n (system.restart s)).1]⟩ :=
  .head .crash (Runs.advance Config.alive_nil hallowed)

end Concrete

end System

end SafeWallet
