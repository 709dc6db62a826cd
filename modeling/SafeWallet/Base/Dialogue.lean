/-
# Programs that talk with a partner

A program sends one message after the other to a partner that it does not control,
a card or a library, and goes on with the answer. It ends with a value or with an
error, which its caller may catch, or it stops for good: at a trap, or because it
waits for an answer that never comes.

A partner is a relation on states that also tell what has been said so far. A
program is safe when it says nothing out of turn and keeps an invariant, whatever
the answers are. Safety is proved function by function; the last section turns it
into a statement about whole runs of a service, whose programs may be cut off
between any two messages.
-/

import Mathlib.Logic.Relation
import SafeWallet.Base.Trapping

namespace SafeWallet

/-- A program over messages `M` with answers `A`, errors `ε` and results `α`. -/
inductive Dialogue (M : Type) (A : M → Type) (ε α : Type) : Type
  | pure (a : α)
  | fail (e : ε)
  | trap (reason : Trap)
  | wait
  | say (m : M) (next : A m → Dialogue M A ε α)

namespace Dialogue

variable {M : Type} {A : M → Type} {ε ε' α β : Type}

/-- Sequencing stops at an error. -/
def bind : Dialogue M A ε α → (α → Dialogue M A ε β) → Dialogue M A ε β
  | pure a, k => k a
  | fail e, _ => fail e
  | trap reason, _ => trap reason
  | wait, _ => wait
  | say m next, k => say m fun a => (next a).bind k

instance : Monad (Dialogue M A ε) where
  pure := Dialogue.pure
  bind := Dialogue.bind

/-- `do … catch`: an error is handled, a trap is not. -/
def orElse : Dialogue M A ε α → (ε → Dialogue M A ε' α) → Dialogue M A ε' α
  | pure a, _ => pure a
  | fail e, handler => handler e
  | trap reason, _ => trap reason
  | wait, _ => wait
  | say m next, handler => say m fun a => (next a).orElse handler

/-- `defer`: a last action after a result as after an error, which cannot fail itself. -/
def deferring (p : Dialogue M A ε α) (cleanup : Dialogue M A ε Unit) : Dialogue M A ε α :=
  match p with
  | pure a => cleanup.bind fun _ => pure a
  | fail e => cleanup.bind fun _ => fail e
  | trap reason => trap reason
  | wait => wait
  | say m next => say m fun a => (next a).deferring cleanup

/-- Send a message and return its answer. -/
def send (m : M) : Dialogue M A ε (A m) := say m .pure

/-- A loop over a list. -/
def each : List β → (β → Dialogue M A ε Unit) → Dialogue M A ε Unit
  | [], _ => .pure ()
  | b :: rest, f => f b >>= fun _ => each rest f

@[simp]
theorem pure_eq (a : α) : (Pure.pure a : Dialogue M A ε α) = .pure a := rfl

@[simp]
theorem pure_bind (a : α) (k : α → Dialogue M A ε β) : (Dialogue.pure a >>= k) = k a := rfl

@[simp]
theorem fail_bind (e : ε) (k : α → Dialogue M A ε β) : (Dialogue.fail e >>= k) = .fail e := rfl

@[simp]
theorem say_bind (m : M) (next : A m → Dialogue M A ε α) (k : α → Dialogue M A ε β) :
    (Dialogue.say m next >>= k) = .say m fun a => next a >>= k := rfl

@[simp]
theorem send_bind (m : M) (k : A m → Dialogue M A ε β) : (send m >>= k) = .say m k := rfl

end Dialogue

/-- What may be said in a state, what the answers make of the state, and which traps
are put up with. -/
structure Partner (M : Type) (A : M → Type) (σ : Type) where
  inTurn : σ → M → Prop
  answers : σ → (m : M) → A m → σ → Prop
  tolerates : Trap → Prop

namespace Dialogue

variable {M : Type} {A : M → Type} {σ ε ε' α β : Type}

/-- Whatever the partner answers, the program says nothing out of turn, stops at no other
traps and keeps the invariant; its results satisfy `ok` and its errors `err`. -/
def Safe (partner : Partner M A σ) (inv : σ → Prop) :
    Dialogue M A ε α → σ → (α → σ → Prop) → (ε → σ → Prop) → Prop
  | pure a, s, ok, _ => ok a s
  | fail e, s, _, err => err e s
  | trap reason, _, _, _ => partner.tolerates reason
  | wait, _, _, _ => True
  | say m next, s, ok, err =>
    partner.inTurn s m ∧ ∀ a s', partner.answers s m a s' →
      inv s' ∧ (next a).Safe partner inv s' ok err

section Rules

variable {partner : Partner M A σ} {inv : σ → Prop} {s : σ} {p : Dialogue M A ε α}
variable {ok ok' : α → σ → Prop} {err err' : ε → σ → Prop}

theorem Safe.mono (h : p.Safe partner inv s ok err) (hok : ∀ a s', ok a s' → ok' a s')
    (herr : ∀ e s', err e s' → err' e s') : p.Safe partner inv s ok' err' := by
  induction p generalizing s with
  | pure a => exact hok a s h
  | fail e => exact herr e s h
  | trap reason => exact h
  | wait => trivial
  | say m next ih => exact ⟨h.1, fun a s' hanswer => ⟨(h.2 a s' hanswer).1,
      ih a (h.2 a s' hanswer).2⟩⟩

/-- A sequence is safe when its second part is safe where the first one ends. -/
theorem Safe.bind {k : α → Dialogue M A ε β} {post : β → σ → Prop}
    (h : p.Safe partner inv s (fun a s' => (k a).Safe partner inv s' post err) err) :
    (p >>= k).Safe partner inv s post err := by
  induction p generalizing s with
  | pure a => exact h
  | fail e => exact h
  | trap reason => exact h
  | wait => trivial
  | say m next ih => exact ⟨h.1, fun a s' hanswer => ⟨(h.2 a s' hanswer).1,
      ih a (h.2 a s' hanswer).2⟩⟩

theorem Safe.orElse {handler : ε → Dialogue M A ε' α} {err' : ε' → σ → Prop}
    (h : p.Safe partner inv s ok fun e s' => (handler e).Safe partner inv s' ok err') :
    (p.orElse handler).Safe partner inv s ok err' := by
  induction p generalizing s with
  | pure a => exact h
  | fail e => exact h
  | trap reason => exact h
  | wait => trivial
  | say m next ih => exact ⟨h.1, fun a s' hanswer => ⟨(h.2 a s' hanswer).1,
      ih a (h.2 a s' hanswer).2⟩⟩

theorem Safe.deferring {cleanup : Dialogue M A ε Unit}
    (h : p.Safe partner inv s
      (fun a s' => cleanup.Safe partner inv s' (fun _ s'' => ok a s'') fun _ _ => False)
      fun e s' => cleanup.Safe partner inv s' (fun _ s'' => err e s'') fun _ _ => False) :
    (p.deferring cleanup).Safe partner inv s ok err := by
  induction p generalizing s with
  | pure a =>
      refine Safe.bind (Safe.mono h ?_ ?_)
      · exact fun _ _ hok => hok
      · exact fun _ _ hfalse => hfalse.elim
  | fail e =>
      refine Safe.bind (Safe.mono h ?_ ?_)
      · exact fun _ _ herr => herr
      · exact fun _ _ hfalse => hfalse.elim
  | trap reason => exact h
  | wait => trivial
  | say m next ih => exact ⟨h.1, fun a s' hanswer => ⟨(h.2 a s' hanswer).1,
      ih a (h.2 a s' hanswer).2⟩⟩

/-- The invariant holds at the end as well. -/
theorem Safe.keeps (h : p.Safe partner inv s ok err) (hs : inv s) :
    p.Safe partner inv s (fun a s' => inv s' ∧ ok a s') fun e s' => inv s' ∧ err e s' := by
  induction p generalizing s with
  | pure a => exact ⟨hs, h⟩
  | fail e => exact ⟨hs, h⟩
  | trap reason => exact h
  | wait => trivial
  | say m next ih =>
      refine ⟨h.1, fun a s' hanswer => ?_⟩
      obtain ⟨hinv, hnext⟩ := h.2 a s' hanswer
      exact ⟨hinv, ih a hnext hinv⟩

/-- A loop is safe when its body is safe wherever a loop invariant holds. -/
theorem Safe.each {bs : List β} {f : β → Dialogue M A ε Unit} {during : σ → Prop}
    (hstart : during s) (hbody : ∀ b ∈ bs, ∀ s', during s' →
      (f b).Safe partner inv s' (fun _ s'' => during s'') err) :
    (Dialogue.each bs f).Safe partner inv s (fun _ s' => during s') err := by
  induction bs generalizing s with
  | nil => exact hstart
  | cons b rest ih =>
      apply Safe.bind
      refine (hbody b List.mem_cons_self s hstart).mono (fun _ s' hs' => ?_) fun _ _ h => h
      exact ih hs' fun b' hb' => hbody b' (List.mem_cons_of_mem _ hb')

end Rules

/-! ## Refinement -/

/-- What is safe with a partner is safe with every partner that refines it, and keeps what
messages in turn keep there. -/
theorem Safe.refine {σ' : Type} {partner : Partner M A σ} {partner' : Partner M A σ'}
    {inv : σ → Prop} {inv' : σ' → Prop} {f : σ' → σ} {p : Dialogue M A ε α} {s : σ'}
    {ok : α → σ → Prop} {err : ε → σ → Prop}
    (hturn : ∀ s m, partner.inTurn (f s) m → partner'.inTurn s m)
    (htraps : ∀ reason, partner.tolerates reason → partner'.tolerates reason)
    (hanswers : ∀ s m a s', partner.inTurn (f s) m → partner'.answers s m a s' → inv (f s) →
      inv' s → partner.answers (f s) m a (f s') ∧ inv' s')
    (h : p.Safe partner inv (f s) ok err) (hs : inv (f s)) (hs' : inv' s) :
    p.Safe partner' (fun s => inv (f s) ∧ inv' s) s (fun a s => ok a (f s))
      fun e s => err e (f s) := by
  induction p generalizing s with
  | pure a => exact h
  | fail e => exact h
  | trap reason => exact htraps reason h
  | wait => trivial
  | say m next ih =>
      refine ⟨hturn s m h.1, fun a s' hanswer => ?_⟩
      obtain ⟨hanswer', hinv'⟩ := hanswers s m a s' h.1 hanswer hs hs'
      obtain ⟨hinv, hnext⟩ := h.2 a (f s') hanswer'
      exact ⟨⟨hinv, hinv'⟩, ih a hnext hinv hinv'⟩

end Dialogue

/-- A service: which programs begin in a state, and what may become of the state when a
program is cut off or while none is at work. -/
structure Service (M : Type) (A : M → Type) (σ ε : Type) where
  partner : Partner M A σ
  starts : σ → Dialogue M A ε Unit → Prop
  cuts : σ → σ → Prop

namespace Service

variable {M : Type} {A : M → Type} {σ ε : Type}

/-- One step of a service with at most one program at work. -/
inductive Step (service : Service M A σ ε) :
    Option (Dialogue M A ε Unit) × σ → Option (Dialogue M A ε Unit) × σ → Prop
  | start {s : σ} {p : Dialogue M A ε Unit} (starts : service.starts s p) :
      Step service (none, s) (some p, s)
  | say {s s' : σ} {m : M} {next : A m → Dialogue M A ε Unit} {a : A m}
      (answer : service.partner.answers s m a s') :
      Step service (some (.say m next), s) (some (next a), s')
  | ended {s : σ} : Step service (some (.pure ()), s) (none, s)
  | failed {s : σ} {e : ε} : Step service (some (.fail e), s) (none, s)
  | cut {s s' : σ} {p : Option (Dialogue M A ε Unit)} (cuts : service.cuts s s') :
      Step service (p, s) (none, s')

/-- Runs of any length. -/
abbrev Runs (service : Service M A σ ε) :
    Option (Dialogue M A ε Unit) × σ → Option (Dialogue M A ε Unit) × σ → Prop :=
  Relation.ReflTransGen service.Step

/-- What holds between the programs, when each of them is safe and restores it. -/
theorem rest_of_runs {service : Service M A σ ε} {inv rest : σ → Prop}
    (hstarts : ∀ s p, service.starts s p → rest s →
      inv s ∧ p.Safe service.partner inv s (fun _ s' => rest s') fun _ s' => rest s')
    (hcuts : ∀ s s', service.cuts s s' → rest s ∨ inv s → rest s') {s : σ}
    {c : Option (Dialogue M A ε Unit) × σ} (hruns : service.Runs (none, s) c) (hs : rest s) :
    (c.1 = none → rest c.2) ∧ ∀ p, c.1 = some p →
      inv c.2 ∧ p.Safe service.partner inv c.2 (fun _ s' => rest s') fun _ s' => rest s' := by
  induction hruns with
  | refl => exact ⟨fun _ => hs, fun p hp => (by cases hp)⟩
  | tail _ hstep ih =>
      obtain ⟨hrest, hsafe⟩ := ih
      cases hstep with
      | start hstart =>
          refine ⟨fun hnone => (by cases hnone), fun p hp => ?_⟩
          cases hp
          exact hstarts _ _ hstart (hrest rfl)
      | say hanswer =>
          obtain ⟨hinv, hnext⟩ := (hsafe _ rfl).2.2 _ _ hanswer
          refine ⟨fun hnone => (by cases hnone), fun p hp => ?_⟩
          cases hp
          exact ⟨hinv, hnext⟩
      | ended => exact ⟨fun _ => (hsafe _ rfl).2, fun p hp => (by cases hp)⟩
      | failed => exact ⟨fun _ => (hsafe _ rfl).2, fun p hp => (by cases hp)⟩
      | @cut s s' p hcut =>
          refine ⟨fun _ => hcuts _ _ hcut ?_, fun p hp => (by cases hp)⟩
          cases p with
          | none => exact .inl (hrest rfl)
          | some p => exact .inr (hsafe p rfl).1

/-- When every program that begins is safe, the invariant holds in every state of a run. -/
theorem inv_of_runs {service : Service M A σ ε} {inv : σ → Prop}
    (hstarts : ∀ s p, service.starts s p → inv s →
      p.Safe service.partner inv s (fun _ _ => True) fun _ _ => True)
    (hcuts : ∀ s s', service.cuts s s' → inv s → inv s') {s : σ}
    {c : Option (Dialogue M A ε Unit) × σ} (hruns : service.Runs (none, s) c) (hs : inv s) :
    inv c.2 ∧ ∀ p, c.1 = some p →
      p.Safe service.partner inv c.2 (fun _ _ => True) fun _ _ => True := by
  have hstarts' : ∀ s p, service.starts s p → inv s →
      inv s ∧ p.Safe service.partner inv s (fun _ s' => inv s') fun _ s' => inv s' :=
    fun s p hstart hinv => ⟨hinv, ((hstarts s p hstart hinv).keeps hinv).mono
      (fun _ _ h => h.1) fun _ _ h => h.1⟩
  obtain ⟨hrest, hsafe⟩ := rest_of_runs hstarts'
    (fun s s' hcut h => hcuts s s' hcut (h.elim id id)) hruns hs
  obtain ⟨p, s'⟩ := c
  cases p with
  | none => exact ⟨hrest rfl, fun p hp => (by cases hp)⟩
  | some p =>
      obtain ⟨hinv, hp⟩ := hsafe p rfl
      refine ⟨hinv, fun q hq => ?_⟩
      cases hq
      exact hp.mono (fun _ _ _ => trivial) fun _ _ _ => trivial

end Service

end SafeWallet
