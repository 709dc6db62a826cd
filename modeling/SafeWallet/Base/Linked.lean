/-
# Lists linked from a sentinel

A contract that keeps a set as a singly linked list starts it at a sentinel and
asks, for every change at an element, for the element before it. Here the list is
a list, the sentinel is in front of it, and being directly followed is an infix of
length two. A copy of such a list is usually kept as a sequence with the sentinel
at both ends; the lemmas say that looking one place before an element in the copy
finds its predecessor, and what replacing and erasing an element leaves.
-/

import Mathlib.Data.List.Infix
import Mathlib.Data.List.Nodup

namespace SafeWallet

namespace Linked

universe u v

variable {α : Type u}

/-- In the list behind the sentinel, `prev` is directly followed by `x`. -/
def PointsTo (sentinel : α) (xs : List α) (prev x : α) : Prop := [prev, x] <:+: sentinel :: xs

/-- The sequence with the sentinel at both ends. -/
def enclosed (sentinel : α) (xs : List α) : List α := sentinel :: xs ++ [sentinel]

variable {sentinel prev x y z : α} {xs front back : List α}

/-- An element of a split list follows the last element in front of it. -/
theorem pointsTo_split :
    PointsTo sentinel (front ++ x :: back) ((sentinel :: front).getLast (by simp)) x := by
  refine ⟨(sentinel :: front).dropLast, back, ?_⟩
  calc (sentinel :: front).dropLast ++ [(sentinel :: front).getLast (by simp), x] ++ back
      = ((sentinel :: front).dropLast ++ [(sentinel :: front).getLast (by simp)]) ++
          x :: back := by simp
    _ = (sentinel :: front) ++ x :: back := by rw [List.dropLast_append_getLast]

/-- What follows an element is in the list. -/
theorem PointsTo.mem (h : PointsTo sentinel xs prev x) : x ∈ xs := by
  obtain ⟨front, back, h⟩ := h
  cases front with
  | nil =>
      cases h
      simp
  | cons first front =>
      cases h
      simp

variable [DecidableEq α]

instance : Decidable (PointsTo sentinel xs prev x) :=
  inferInstanceAs (Decidable ([prev, x] <:+: sentinel :: xs))

/-! ## Replacing and erasing -/

theorem replace_split (h : x ∉ front) :
    (front ++ x :: back).replace x y = front ++ y :: back := by
  rw [List.replace_append_right h, List.replace_cons_self]

/-- Replacing an element keeps the others. -/
theorem mem_replace_of_ne (hz : z ∈ xs) (hne : z ≠ x) : z ∈ xs.replace x y := by
  induction xs with
  | nil => cases hz
  | cons first rest ih => grind

/-- Replacing an element exchanges it for the new one. -/
theorem mem_replace (hnodup : xs.Nodup) (hx : x ∈ xs) :
    z ∈ xs.replace x y ↔ z = y ∨ (z ∈ xs ∧ z ≠ x) := by
  obtain ⟨front, back, rfl, hfront⟩ := List.eq_append_cons_of_mem hx
  have hback : x ∉ back := by
    have := (List.nodup_append.mp hnodup).2.1
    exact (List.nodup_cons.mp this).1
  rw [replace_split hfront]
  grind

/-- Replacing an element by one that is not in the list keeps the elements
pairwise different. -/
theorem nodup_replace (hnodup : xs.Nodup) (hy : y ∉ xs) : (xs.replace x y).Nodup := by
  by_cases hx : x ∈ xs
  · obtain ⟨front, back, rfl, hfront⟩ := List.eq_append_cons_of_mem hx
    rw [replace_split hfront]
    grind
  · rwa [List.replace_of_not_mem hx]

/-- Two elements are replaced in any order. -/
theorem replace_comm {x' y' : α} (hne : x ≠ y) (hx : x' ≠ y) (hy : y' ≠ x) :
    (xs.replace x x').replace y y' = (xs.replace y y').replace x x' := by
  induction xs with
  | nil => rfl
  | cons first rest ih => grind

/-! ## Copies

The copy of a list under an injection is searched from the front. -/

section Copy

variable {β : Type v} [DecidableEq β] {f : α → β}

theorem idxOf?_split {b : β} {first last : List β} (h : b ∉ first) :
    (first ++ b :: last).idxOf? b = some first.length := by
  rw [List.idxOf?_eq_some_iff]
  refine ⟨by simp, by simp, ?_⟩
  intro i hi heq
  rw [List.getElem_append_left hi] at heq
  exact h (heq ▸ List.getElem_mem hi)

omit [DecidableEq α] [DecidableEq β] in
/-- A list behind its sentinel, split at an element, and its copy. -/
theorem exists_copy_split (hf : Function.Injective f) (hsentinel : x ≠ sentinel) (hx : x ∈ xs) :
    ∃ front back, xs = front ++ x :: back ∧ x ∉ front ∧
      (enclosed sentinel xs).map f =
        (sentinel :: front).map f ++ f x :: (back ++ [sentinel]).map f ∧
      f x ∉ (sentinel :: front).map f := by
  obtain ⟨front, back, rfl, hfront⟩ := List.eq_append_cons_of_mem hx
  refine ⟨front, back, rfl, hfront, by simp [enclosed], ?_⟩
  rw [List.mem_map_of_injective hf]
  simp [hsentinel, hfront]

omit [DecidableEq α] in
/-- One place before an element its copy has the predecessor. -/
theorem copy_before (hf : Function.Injective f) (hsentinel : x ≠ sentinel) (hx : x ∈ xs) :
    ∃ i prev, ((enclosed sentinel xs).map f).idxOf? (f x) = some (i + 1) ∧
      ((enclosed sentinel xs).map f)[i]? = some (f prev) ∧ PointsTo sentinel xs prev x := by
  obtain ⟨front, back, rfl, -, hcopy, hnot⟩ := exists_copy_split hf hsentinel hx
  refine ⟨front.length, (sentinel :: front).getLast (by simp), ?_, ?_, pointsTo_split⟩
  · rw [hcopy, idxOf?_split hnot]
    simp
  · rw [hcopy, List.getElem?_append_left (by simp), List.getElem?_map, List.getLast_eq_getElem]
    simp

/-- Writing at the place of an element is replacing it. -/
theorem copy_set (hf : Function.Injective f) (hsentinel : x ≠ sentinel) (hx : x ∈ xs) :
    ∃ i, ((enclosed sentinel xs).map f).idxOf? (f x) = some i ∧
      ((enclosed sentinel xs).map f).set i (f y) = (enclosed sentinel (xs.replace x y)).map f := by
  obtain ⟨front, back, rfl, hfront, hcopy, hnot⟩ := exists_copy_split hf hsentinel hx
  refine ⟨_, by rw [hcopy, idxOf?_split hnot], ?_⟩
  rw [hcopy, List.set_append_right _ _ le_rfl, replace_split hfront]
  simp [enclosed]

/-- Removing at the place of an element is erasing it. -/
theorem copy_eraseIdx (hf : Function.Injective f) (hsentinel : x ≠ sentinel) (hx : x ∈ xs) :
    ∃ i, ((enclosed sentinel xs).map f).idxOf? (f x) = some i ∧
      ((enclosed sentinel xs).map f).eraseIdx i = (enclosed sentinel (xs.erase x)).map f := by
  obtain ⟨front, back, rfl, hfront, hcopy, hnot⟩ := exists_copy_split hf hsentinel hx
  refine ⟨_, by rw [hcopy, idxOf?_split hnot], ?_⟩
  rw [hcopy, List.eraseIdx_append_of_length_le le_rfl, List.erase_append_right _ hfront]
  simp [enclosed]

end Copy

end Linked

end SafeWallet
