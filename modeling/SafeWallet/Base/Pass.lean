/-
# Passes that a failure ends

A pass takes items one after another, and which ones it takes may depend on the state
it finds on the way. It is written once and read twice: as the loop that ends at the
first item that fails, and as the loop in which a failure ends its own item only. The
two leave the same state exactly if no item that has an effect comes after one that
fails.
-/

import Mathlib.Algebra.Order.Ring.Nat

namespace SafeWallet

/-- A pass over items `β` with a look at the state `σ` in between. -/
inductive Pass (σ β : Type)
  | done
  | take (item : β) (rest : Pass σ β)
  | look (next : σ → Pass σ β)

namespace Pass

variable {σ β : Type}

/-- Take the items of a list, then go on. -/
def takeAll (items : List β) (rest : Pass σ β) : Pass σ β := items.foldr take rest

/-- The loop that ends at the first item that fails: whether none did. -/
def run (step : β → σ → Bool × σ) : Pass σ β → σ → Bool × σ
  | done, s => (true, s)
  | take item rest, s =>
    if (step item s).1 then rest.run step (step item s).2 else (false, (step item s).2)
  | look next, s => (next s).run step s

/-- The loop in which every item has its effect. -/
def runAll (effect : β → σ → σ) : Pass σ β → σ → σ
  | done, s => s
  | take item rest, s => rest.runAll effect (effect item s)
  | look next, s => (next s).runAll effect s

/-- The items of that loop, each with the state in which its turn comes. -/
def turns (effect : β → σ → σ) : Pass σ β → σ → List (β × σ)
  | done, _ => []
  | take item rest, s => (item, s) :: rest.turns effect (effect item s)
  | look next, s => (next s).turns effect s

section Effects

variable {effect : β → σ → σ} {size : σ → ℕ}

/-- The state grows with every effect. -/
def Grows (effect : β → σ → σ) (size : σ → ℕ) : Prop :=
  ∀ item s, effect item s ≠ s → size s < size (effect item s)

theorem Grows.le (h : Grows effect size) (item : β) (s : σ) : size s ≤ size (effect item s) := by
  by_cases heffect : effect item s = s
  · rw [heffect]
  · exact (h item s heffect).le

theorem Grows.le_runAll (h : Grows effect size) (pass : Pass σ β) (s : σ) :
    size s ≤ size (pass.runAll effect s) := by
  induction pass generalizing s with
  | done => exact le_rfl
  | take item rest ih => exact (h.le item s).trans (ih (effect item s))
  | look next ih => exact ih s s

/-- A pass changes nothing exactly if none of its turns does. -/
theorem Grows.runAll_eq_self_iff (h : Grows effect size) (pass : Pass σ β) (s : σ) :
    pass.runAll effect s = s ↔ ∀ turn ∈ pass.turns effect s, effect turn.1 turn.2 = turn.2 := by
  induction pass generalizing s with
  | done => simp [runAll, turns]
  | take item rest ih =>
      rw [turns, List.forall_mem_cons]
      by_cases heffect : effect item s = s
      · simp only [runAll, heffect, true_and]
        exact ih s
      · have hlt : size s < size ((take item rest).runAll effect s) :=
          (h item s heffect).trans_le (h.le_runAll rest (effect item s))
        exact ⟨fun heq => absurd (heq ▸ hlt) (lt_irrefl _), fun hturns => absurd hturns.1 heffect⟩
  | look next ih => exact ih s s

end Effects

variable {step : β → σ → Bool × σ} {effect : β → σ → σ} {size : σ → ℕ}

/-- A failure in a pass costs nothing exactly if no item with an effect comes after an
item that fails. -/
theorem run_eq_runAll_iff (heffect : ∀ item s, (step item s).2 = effect item s)
    (hfail : ∀ item s, (step item s).1 = false → effect item s = s) (hgrows : Grows effect size)
    (pass : Pass σ β) (s : σ) :
    (pass.run step s).2 = pass.runAll effect s ↔
      (pass.turns effect s).Pairwise fun earlier later =>
        (step earlier.1 earlier.2).1 = false → effect later.1 later.2 = later.2 := by
  induction pass generalizing s with
  | done => simp [run, runAll, turns]
  | take item rest ih =>
      rw [turns, List.pairwise_cons]
      cases hstep : (step item s).1 with
      | true =>
          simp only [run, hstep, if_true, heffect, runAll, Bool.true_eq_false, false_implies,
            implies_true, true_and]
          exact ih (effect item s)
      | false =>
          have hself := hfail item s hstep
          simp only [run, hstep, Bool.false_eq_true, if_false, heffect, runAll, hself, true_implies]
          rw [eq_comm, hgrows.runAll_eq_self_iff rest s]
          refine ⟨fun hquiet => ⟨hquiet, ?_⟩, fun h => h.1⟩
          exact List.pairwise_of_forall_mem_list fun _ _ later hlater _ => hquiet later hlater
  | look next ih => exact ih s s

end Pass

end SafeWallet
