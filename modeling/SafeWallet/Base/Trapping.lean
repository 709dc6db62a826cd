/-
# Traps

A Swift process stops at a failed `precondition`, a forced unwrap of `nil`, an
integer conversion that does not fit or a `removeFirst` beyond the end of a
collection. None of these can be caught, so they are kept apart from thrown
errors: a function that may trap returns in `Trapping`, and whatever it would
have returned or thrown is the value inside.
-/

import Mathlib.Algebra.Order.Ring.Nat
import Mathlib.Data.List.Basic

namespace SafeWallet

universe u

/-- The checks of the language and of the standard library that stop a process. -/
inductive Trap
  | forcedUnwrap
  | precondition
  | removeFirst
  | integerOverflow
  deriving DecidableEq, Repr

/-- A computation that may trap. -/
abbrev Trapping (α : Type u) := Except Trap α

namespace Trapping

variable {α β : Type u}

/-- Forced unwrapping, `value!`. -/
def unwrap : Option α → Trapping α
  | some a => .ok a
  | none => .error .forcedUnwrap

@[simp]
theorem unwrap_some (a : α) : unwrap (some a) = .ok a := rfl

@[simp]
theorem unwrap_none : unwrap (none : Option α) = .error .forcedUnwrap := rfl

@[simp]
theorem unwrap_eq_ok_iff {o : Option α} {a : α} : unwrap o = .ok a ↔ o = some a := by
  cases o <;> simp [unwrap]

/-- `precondition(condition)`. -/
def require (condition : Bool) : Trapping Unit :=
  if condition then .ok () else .error .precondition

@[simp]
theorem require_true : require true = .ok () := rfl

@[simp]
theorem require_false : require false = .error .precondition := rfl

theorem require_eq_ok_iff {condition : Bool} {u : Unit} :
    require condition = .ok u ↔ condition = true := by
  cases condition <;> simp

/-- `Collection.removeFirst(_:)` traps when fewer than `k` elements are left. -/
def removeFirst (k : ℕ) (elements : List α) : Trapping (List α) :=
  if elements.length < k then .error .removeFirst else .ok (elements.drop k)

theorem removeFirst_eq_ok_iff {k : ℕ} {elements rest : List α} :
    removeFirst k elements = .ok rest ↔ k ≤ elements.length ∧ rest = elements.drop k := by
  unfold removeFirst
  split
  · simp; omega
  · simp only [Except.ok.injEq]
    constructor
    · rintro rfl
      exact ⟨by omega, rfl⟩
    · rintro ⟨-, rfl⟩
      rfl

theorem removeFirst_of_le {k : ℕ} {elements : List α} (h : k ≤ elements.length) :
    removeFirst k elements = .ok (elements.drop k) :=
  removeFirst_eq_ok_iff.mpr ⟨h, rfl⟩

/-- What stands in front is removed. -/
theorem removeFirst_append {k : ℕ} {front rest : List α} (h : front.length = k) :
    removeFirst k (front ++ rest) = .ok rest := by
  rw [removeFirst_eq_ok_iff, ← h]
  simp

/-- `Int(n)` for an unsigned big integer: a signed 64-bit integer or a trap. -/
def toInt (n : ℕ) : Trapping ℕ :=
  if n < 2 ^ 63 then .ok n else .error .integerOverflow

theorem toInt_eq_ok_iff {n m : ℕ} : toInt n = .ok m ↔ n < 2 ^ 63 ∧ m = n := by
  unfold toInt
  split
  · simp only [Except.ok.injEq]
    exact ⟨fun h => ⟨by assumption, h.symm⟩, fun h => h.2.symm⟩
  · simp; omega

theorem toInt_of_lt {n : ℕ} (h : n < 2 ^ 63) : toInt n = .ok n := if_pos h

/-- Sequencing stops at the first trap. -/
theorem bind_eq_ok_iff {x : Trapping α} {f : α → Trapping β} {b : β} :
    x >>= f = .ok b ↔ ∃ a, x = .ok a ∧ f a = .ok b := by
  cases x with
  | error t => simp [bind, Except.bind]
  | ok a => simp [bind, Except.bind]

@[simp]
theorem ok_bind (a : α) (f : α → Trapping β) : (Except.ok a : Trapping α) >>= f = f a := rfl

@[simp]
theorem error_bind (t : Trap) (f : α → Trapping β) :
    (Except.error t : Trapping α) >>= f = .error t := rfl

@[simp]
theorem pure_eq_ok (a : α) : (pure a : Trapping α) = .ok a := rfl

/-- A loop does not trap if no round does while an invariant holds that the rounds keep. -/
theorem foldlM_ok {p : β → Prop} {elements : List α} (f : β → α → Trapping β) {b : β} (hb : p b)
    (h : ∀ a ∈ elements, ∀ b, p b → ∃ b', f b a = .ok b' ∧ p b') :
    ∃ b', elements.foldlM f b = .ok b' ∧ p b' := by
  induction elements generalizing b with
  | nil => exact ⟨b, rfl, hb⟩
  | cons a rest ih =>
      obtain ⟨b', hround, hb'⟩ := h a List.mem_cons_self b hb
      obtain ⟨final, hrest, hfinal⟩ := ih hb' fun a' ha' => h a' (List.mem_cons_of_mem a ha')
      exact ⟨final, by rw [List.foldlM_cons, hround, ok_bind, hrest], hfinal⟩

/-- A loop has results exactly if each of its elements has one. -/
theorem exists_mapM_eq_ok_iff {f : α → Trapping β} {elements : List α} :
    (∃ results, elements.mapM f = .ok results) ↔ ∀ a ∈ elements, ∃ b, f a = .ok b := by
  induction elements with
  | nil => simp
  | cons a rest ih =>
      rw [List.forall_mem_cons, ← ih]
      simp only [List.mapM_cons, bind_eq_ok_iff, pure_eq_ok, Except.ok.injEq]
      constructor
      · rintro ⟨_, b, hb, results, hresults, -⟩
        exact ⟨⟨b, hb⟩, results, hresults⟩
      · rintro ⟨⟨b, hb⟩, results, hresults⟩
        exact ⟨_, b, hb, results, hresults, rfl⟩

/-- The results of a loop are those of its elements. -/
theorem mem_mapM_iff {f : α → Trapping β} {elements : List α} {results : List β} {b : β}
    (h : elements.mapM f = .ok results) : b ∈ results ↔ ∃ a ∈ elements, f a = .ok b := by
  induction elements generalizing results with
  | nil =>
      cases h
      simp
  | cons a rest ih =>
      simp only [List.mapM_cons, bind_eq_ok_iff, pure_eq_ok, Except.ok.injEq] at h
      obtain ⟨first, hfirst, others, hothers, rfl⟩ := h
      rw [List.mem_cons, ih hothers, List.exists_mem_cons_iff, hfirst, Except.ok.injEq, eq_comm]

theorem mapM_map_eq_ok {γ : Type u} {f : β → Trapping γ} {g : α → β} {k : α → γ} {elements : List α}
    (h : ∀ a ∈ elements, f (g a) = .ok (k a)) :
    (elements.map g).mapM f = .ok (elements.map k) := by
  induction elements with
  | nil => rfl
  | cons a rest ih =>
      obtain ⟨ha, hrest⟩ := List.forall_mem_cons.mp h
      simp only [List.map_cons, List.mapM_cons, ha, ih hrest, ok_bind, pure_eq_ok]

/-! ## Along a run -/

section Along

variable {f : β → α → Trapping β} {b : β} {a : α} {rest : List α}

/-- A property of every state that a loop reaches on the way. -/
def Reached (f : β → α → Trapping β) (p : β → Prop) (elements : List α) (b : β) : Prop :=
  ∀ front back reached, elements = front ++ back → front.foldlM f b = .ok reached → p reached

/-- A property of every round of a loop, with the state in which it begins. -/
def Taken (f : β → α → Trapping β) (q : β → α → Prop) (elements : List α) (b : β) : Prop :=
  ∀ front a back reached, elements = front ++ a :: back → front.foldlM f b = .ok reached →
    q reached a

theorem reached_nil {p : β → Prop} : Reached f p [] b ↔ p b := by
  constructor
  · exact fun h => h [] [] b rfl rfl
  · intro hb front back reached heq hrun
    obtain ⟨rfl, rfl⟩ := List.append_eq_nil_iff.mp heq.symm
    cases hrun
    exact hb

theorem reached_cons {p : β → Prop} : Reached f p (a :: rest) b ↔
    p b ∧ ∀ b', f b a = .ok b' → Reached f p rest b' := by
  constructor
  · intro h
    refine ⟨h [] (a :: rest) b rfl rfl, fun b' hround front back reached heq hrun => ?_⟩
    refine h (a :: front) back reached (by rw [heq]; rfl) ?_
    rw [List.foldlM_cons, hround]
    exact hrun
  · rintro ⟨hb, hrest⟩ front back reached heq hrun
    cases front with
    | nil =>
        cases hrun
        exact hb
    | cons first front =>
        cases heq
        rw [List.foldlM_cons] at hrun
        obtain ⟨b', hround, hrun⟩ := bind_eq_ok_iff.mp hrun
        exact hrest b' hround front back reached rfl hrun

theorem taken_nil {q : β → α → Prop} : Taken f q [] b := by
  intro front a back reached heq
  simp at heq

theorem taken_cons {q : β → α → Prop} : Taken f q (a :: rest) b ↔
    q b a ∧ ∀ b', f b a = .ok b' → Taken f q rest b' := by
  constructor
  · intro h
    refine ⟨h [] a rest b rfl rfl, fun b' hround front next back reached heq hrun => ?_⟩
    refine h (a :: front) next back reached (by rw [heq]; rfl) ?_
    rw [List.foldlM_cons, hround]
    exact hrun
  · rintro ⟨ha, hrest⟩ front next back reached heq hrun
    cases front with
    | nil =>
        cases hrun
        cases heq
        exact ha
    | cons first front =>
        cases heq
        rw [List.foldlM_cons] at hrun
        obtain ⟨b', hround, hrun⟩ := bind_eq_ok_iff.mp hrun
        exact hrest b' hround front next back reached rfl hrun

theorem taken_append {q : β → α → Prop} {front back : List α} : Taken f q (front ++ back) b ↔
    Taken f q front b ∧ ∀ b', front.foldlM f b = .ok b' → Taken f q back b' := by
  induction front generalizing b with
  | nil => simp [taken_nil]
  | cons a front ih =>
      rw [List.cons_append, taken_cons, taken_cons, and_assoc, and_congr_right_iff]
      intro _
      simp only [ih, List.foldlM_cons, bind_eq_ok_iff]
      constructor
      · exact fun h => ⟨fun b' hb' => (h b' hb').1,
          fun final ⟨b', hb', hfinal⟩ => (h b' hb').2 final hfinal⟩
      · exact fun h b' hb' => ⟨h.1 b' hb', fun final hfinal => h.2 final ⟨b', hb', hfinal⟩⟩

/-- Where a round keeps a property exactly if a condition holds before it, the property holds
along a run exactly if the condition does. Another invariant may help. -/
theorem reached_iff_taken {elements : List α} {p r : β → Prop} {q : β → α → Prop}
    (hkeeps : ∀ a ∈ elements, ∀ b b', p b → r b → f b a = .ok b' → p b')
    (hround : ∀ a ∈ elements, ∀ b, p b → r b → ((∀ b', f b a = .ok b' → r b') ↔ q b a))
    (hp : p b) (hr : r b) : Reached f r elements b ↔ Taken f q elements b := by
  induction elements generalizing b with
  | nil => exact ⟨fun _ => taken_nil, fun _ => reached_nil.mpr hr⟩
  | cons a rest ih =>
      have hrest (b' : β) (hb' : f b a = .ok b') (hr' : r b') :
          Reached f r rest b' ↔ Taken f q rest b' :=
        ih (fun a' ha' => hkeeps a' (List.mem_cons_of_mem a ha'))
          (fun a' ha' => hround a' (List.mem_cons_of_mem a ha'))
          (hkeeps a List.mem_cons_self b b' hp hr hb') hr'
      rw [reached_cons, taken_cons, and_iff_right hr, ← hround a List.mem_cons_self b hp hr]
      constructor
      · intro h
        have hnext (b' : β) (hb' : f b a = .ok b') : r b' := h b' hb' [] rest b' rfl rfl
        exact ⟨hnext, fun b' hb' => (hrest b' hb' (hnext b' hb')).mp (h b' hb')⟩
      · rintro ⟨hnext, h⟩ b' hb'
        exact (hrest b' hb' (hnext b' hb')).mpr (h b' hb')

end Along

end Trapping

end SafeWallet
