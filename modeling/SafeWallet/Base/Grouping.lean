/-
# Grouping a sorted list

A loop that opens a new group whenever the key of an element differs from the key of
the last group compares neighbours only. On a list sorted by the key, from the largest
to the smallest, this is enough: every key has one group, and that group has all the
elements of the key.
-/

import Mathlib.Data.List.Induction
import Mathlib.Data.List.Pairwise
import Mathlib.Order.Lattice

namespace SafeWallet

namespace Grouping

universe u v

variable {κ : Type u} {α : Type v} [LinearOrder κ] (key : α → κ)

/-- The next element: into the last group if that has its key, else into a new one. -/
def place (groups : List (κ × List α)) (a : α) : List (κ × List α) :=
  if groups.getLast?.map Prod.fst = some (key a) then
    groups.modify (groups.length - 1) fun group => (group.1, group.2 ++ [a])
  else groups ++ [(key a, [a])]

/-- The groups of a list: in the order of the list, none of them empty, each with one key,
the keys from the largest to the smallest. -/
structure Grouped (elements : List α) (groups : List (κ × List α)) : Prop where
  flatten : groups.flatMap Prod.snd = elements
  keyed : ∀ group ∈ groups, group.2 ≠ [] ∧ ∀ a ∈ group.2, key a = group.1
  descending : groups.Pairwise fun first second => second.1 < first.1

variable {key} {elements : List α} {groups : List (κ × List α)} {a : α}

/-- Changing the last element of a list. -/
theorem modify_last {β : Type u} (front : List β) (last : β) (f : β → β) :
    (front ++ [last]).modify ((front ++ [last]).length - 1) f = front ++ [f last] := by
  have hlength : (front ++ [last]).length - 1 = front.length := by simp
  rw [hlength]
  induction front with
  | nil => rfl
  | cons first rest ih => simpa using ih

theorem Grouped.place (h : Grouped key elements groups) (hle : ∀ x ∈ elements, key a ≤ key x) :
    Grouped key (elements ++ [a]) (place key groups a) := by
  -- the keys of the groups are keys of elements
  have hkeys : ∀ group ∈ groups, key a ≤ group.1 := by
    intro group hgroup
    obtain ⟨hne, hkey⟩ := h.keyed group hgroup
    obtain ⟨x, hx⟩ := List.exists_mem_of_ne_nil _ hne
    rw [← hkey x hx]
    apply hle
    rw [← h.flatten]
    exact List.mem_flatMap.mpr ⟨group, hgroup, hx⟩
  obtain ⟨hflatten, hkeyed, hdescending⟩ := h
  rw [Grouping.place]
  induction groups using List.reverseRecOn with
  | nil =>
      refine ⟨?_, ?_, ?_⟩
      · simpa using hflatten
      · simp
      · simp
  | append_singleton front last _ =>
      by_cases hlast : last.1 = key a
      · rw [if_pos (by simp [hlast]), modify_last]
        refine ⟨?_, ?_, ?_⟩
        · rw [← hflatten]
          simp
        · intro group hgroup
          rcases List.mem_append.mp hgroup with hfront | hnew
          · exact hkeyed group (List.mem_append_left _ hfront)
          · rw [List.mem_singleton.mp hnew]
            have hold := hkeyed last (by simp)
            refine ⟨by simp, fun x hx => ?_⟩
            rcases List.mem_append.mp hx with hx | hx
            · exact hold.2 x hx
            · rw [List.mem_singleton.mp hx, hlast]
        · simpa [List.pairwise_append] using hdescending
      · rw [if_neg (by simpa using hlast)]
        have hlt : ∀ group ∈ front ++ [last], key a < group.1 := by
          intro group hgroup
          rcases List.mem_append.mp hgroup with hfront | hnew
          · have hpairs := (List.pairwise_append.mp hdescending).2.2
            exact (hkeys last (by simp)).trans_lt (hpairs group hfront last (by simp))
          · rw [List.mem_singleton.mp hnew]
            exact lt_of_le_of_ne (hkeys last (by simp)) fun heq => hlast heq.symm
        refine ⟨?_, ?_, ?_⟩
        · rw [List.flatMap_append, hflatten]
          simp
        · intro group hgroup
          rcases List.mem_append.mp hgroup with hold | hnew
          · exact hkeyed group hold
          · rw [List.mem_singleton.mp hnew]
            simp
        · rw [List.pairwise_append]
          refine ⟨hdescending, by simp, fun group hgroup new hnew => ?_⟩
          rw [List.mem_singleton.mp hnew]
          exact hlt group hgroup

/-- The loop groups every sorted list. -/
theorem grouped_foldl (h : elements.Pairwise fun first second => key second ≤ key first) :
    Grouped key elements (elements.foldl (place key) []) := by
  induction elements using List.reverseRecOn with
  | nil => exact ⟨rfl, by simp, by simp⟩
  | append_singleton front last ih =>
      obtain ⟨hfront, -, hlast⟩ := List.pairwise_append.mp h
      rw [List.foldl_append]
      exact (ih hfront).place fun x hx => hlast x hx last (by simp)

/-- A group has all the elements of its key. -/
theorem Grouped.mem_iff (h : Grouped key elements groups) {group : κ × List α}
    (hgroup : group ∈ groups) : a ∈ group.2 ↔ a ∈ elements ∧ key a = group.1 := by
  constructor
  · intro ha
    refine ⟨?_, (h.keyed group hgroup).2 a ha⟩
    rw [← h.flatten]
    exact List.mem_flatMap.mpr ⟨group, hgroup, ha⟩
  · intro hmem
    obtain ⟨ha, hkey⟩ := hmem
    rw [← h.flatten] at ha
    obtain ⟨other, hother, ha⟩ := List.mem_flatMap.mp ha
    have hsame : other.1 = group.1 := ((h.keyed other hother).2 a ha).symm.trans hkey
    by_contra hnot
    have hne : other ≠ group := fun heq => hnot (heq ▸ ha)
    have hsymm : Std.Symm fun first second : κ × List α => first.1 ≠ second.1 :=
      ⟨fun _ _ hxy => hxy.symm⟩
    have hdiffer : groups.Pairwise fun first second => first.1 ≠ second.1 :=
      h.descending.imp fun hlt => hlt.ne'
    exact hdiffer.forall hother hgroup hne hsame

end Grouping

end SafeWallet
