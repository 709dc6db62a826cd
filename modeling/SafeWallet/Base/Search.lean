/-
# Searching with a list of visited keys

A search takes the first node of its work list, leaves it out if a node with the same
key was seen before, stops if it is a goal, and otherwise puts what follows the node at
the end of the list. The work list may hold a node many times and the graph may have
cycles; only the list of visited keys bounds the search.

The rounds are counted. On a finite set of nodes with different keys that the graph
does not leave, some number of rounds is enough, and the answer is whether a goal can be
reached from the nodes the search started with.
-/

import Mathlib.Data.List.Basic
import Mathlib.Logic.Relation

namespace SafeWallet

namespace Search

universe u v

variable {α : Type u} {κ : Type v} [DecidableEq κ]
variable (key : α → κ) (next : α → List α) (goal : α → Bool)

/-- The search with the visited keys and the work list, if it ends within the rounds. -/
def search : ℕ → List κ → List α → Option Bool
  | 0, _, _ => none
  | _ + 1, _, [] => some false
  | rounds + 1, visited, node :: rest =>
    if key node ∈ visited then search rounds visited rest
    else if goal node then some true
    else search rounds (visited ++ [key node]) (rest ++ next node)

/-- A node can be reached in the graph. -/
def Reaches (node target : α) : Prop := Relation.ReflTransGen (fun a b => b ∈ next a) node target

/-- A goal can be reached. -/
def Leads (node : α) : Prop := ∃ target, Reaches next node target ∧ goal target = true

/-- The nodes that are not visited yet. -/
def unvisited (nodes : List α) (visited : List κ) : List α :=
  nodes.filter fun node => key node ∉ visited

/-- What the search keeps: the work list has nodes only, and a visited node is no goal and is
followed by nodes that are visited or in the work list. -/
structure Explored (nodes : List α) (visited : List κ) (work : List α) : Prop where
  inside : ∀ node ∈ work, node ∈ nodes
  settled : ∀ node ∈ nodes, key node ∈ visited →
    goal node = false ∧ ∀ m ∈ next node, key m ∈ visited ∨ m ∈ work

variable {key next goal} {nodes work rest : List α} {visited : List κ} {node : α}

/-- From a visited node every goal is reached through the rest of the work list. -/
theorem Explored.leads_rest (h : Explored key next goal nodes visited (node :: rest))
    (hclosed : ∀ a ∈ nodes, ∀ b ∈ next a, b ∈ nodes) (hvisited : key node ∈ visited)
    (hleads : Leads next goal node) : ∃ other ∈ rest, Leads next goal other := by
  obtain ⟨target, hpath, hgoal⟩ := hleads
  have hnode := h.inside node List.mem_cons_self
  have hwalk : ∀ a, Reaches next a target → a ∈ nodes → key a ∈ visited →
      ∃ other ∈ rest, Leads next goal other := by
    intro a ha
    induction ha using Relation.ReflTransGen.head_induction_on with
    | refl =>
        intro hmem hseen
        have hno := (h.settled target hmem hseen).1
        rw [hgoal] at hno
        cases hno
    | head hstep hrest ih =>
        intro hmem hseen
        rename_i a b
        have hb := hclosed a hmem b hstep
        by_cases hbseen : key b ∈ visited
        · exact ih hb hbseen
        · have hwork := ((h.settled a hmem hseen).2 b hstep).resolve_left hbseen
          rcases List.mem_cons.mp hwork with rfl | hwork
          · exact absurd hvisited hbseen
          · exact ⟨b, hwork, target, hrest, hgoal⟩
  exact hwalk node hpath hnode hvisited

omit [DecidableEq κ] in
theorem Explored.skip (h : Explored key next goal nodes visited (node :: rest))
    (hvisited : key node ∈ visited) : Explored key next goal nodes visited rest where
  inside other hother := h.inside other (List.mem_cons_of_mem _ hother)
  settled other hother hseen := by
    refine ⟨(h.settled other hother hseen).1, fun m hm => ?_⟩
    rcases (h.settled other hother hseen).2 m hm with hseen | hwork
    · exact .inl hseen
    · rcases List.mem_cons.mp hwork with rfl | hwork
      · exact .inl hvisited
      · exact .inr hwork

omit [DecidableEq κ] in
theorem Explored.visit (h : Explored key next goal nodes visited (node :: rest))
    (hclosed : ∀ a ∈ nodes, ∀ b ∈ next a, b ∈ nodes)
    (hkey : ∀ a ∈ nodes, ∀ b ∈ nodes, key a = key b → a = b) (hgoal : goal node = false) :
    Explored key next goal nodes (visited ++ [key node]) (rest ++ next node) where
  inside other hother := by
    rcases List.mem_append.mp hother with hother | hother
    · exact h.inside other (List.mem_cons_of_mem _ hother)
    · exact hclosed node (h.inside node List.mem_cons_self) other hother
  settled other hother hseen := by
    rcases List.mem_append.mp hseen with hseen | hnew
    · refine ⟨(h.settled other hother hseen).1, fun m hm => ?_⟩
      rcases (h.settled other hother hseen).2 m hm with hseen | hwork
      · exact .inl (List.mem_append_left _ hseen)
      · rcases List.mem_cons.mp hwork with rfl | hwork
        · exact .inl (by simp)
        · exact .inr (List.mem_append_left _ hwork)
    · have hsame := hkey other hother node (h.inside node List.mem_cons_self) (by simpa using hnew)
      rw [hsame]
      exact ⟨hgoal, fun m hm => .inr (List.mem_append_right _ hm)⟩

/-- A goal beyond a node that is none is reached through what follows it. -/
theorem leads_iff_next (hgoal : goal node = false) :
    Leads next goal node ↔ ∃ m ∈ next node, Leads next goal m := by
  constructor
  · intro h
    obtain ⟨target, hpath, htarget⟩ := h
    rcases Relation.ReflTransGen.cases_head hpath with rfl | ⟨m, hm, hrest⟩
    · rw [hgoal] at htarget
      cases htarget
    · exact ⟨m, hm, target, hrest, htarget⟩
  · intro h
    obtain ⟨m, hm, target, hrest, htarget⟩ := h
    exact ⟨target, Relation.ReflTransGen.head hm hrest, htarget⟩

/-- Visiting a node leaves fewer nodes to visit. -/
theorem length_unvisited_lt (hnode : node ∈ nodes) (hnew : key node ∉ visited) :
    (unvisited key nodes (visited ++ [key node])).length < (unvisited key nodes visited).length := by
  have hfilter : unvisited key nodes (visited ++ [key node]) =
      (unvisited key nodes visited).filter fun other => key other ≠ key node := by
    rw [unvisited, unvisited, List.filter_filter]
    apply List.filter_congr
    intro other _
    simp only [List.mem_append, List.mem_singleton, not_or, Bool.decide_and]
    exact Bool.and_comm _ _
  rw [hfilter]
  apply List.length_filter_lt_length_iff_exists.mpr
  exact ⟨node, List.mem_filter.mpr ⟨hnode, by simpa using hnew⟩, by simp⟩

/-- The search ends, and its answer is whether a goal can be reached from the work list. -/
theorem Explored.search_spec (hclosed : ∀ a ∈ nodes, ∀ b ∈ next a, b ∈ nodes)
    (hkey : ∀ a ∈ nodes, ∀ b ∈ nodes, key a = key b → a = b)
    (h : Explored key next goal nodes visited work) :
    ∃ bound found, (found = true ↔ ∃ other ∈ work, Leads next goal other) ∧
      ∀ rounds ≥ bound, search key next goal rounds visited work = some found := by
  -- the nodes that are left to visit decrease, and between two visits the work list does
  induction hn : (unvisited key nodes visited).length using Nat.strongRecOn
    generalizing visited work with
  | ind n ih =>
      induction work with
      | nil =>
          refine ⟨1, false, by simp, fun rounds hrounds => ?_⟩
          obtain ⟨k, rfl⟩ := Nat.exists_eq_add_of_le' hrounds
          rfl
      | cons node rest ihwork =>
          by_cases hvisited : key node ∈ visited
          · obtain ⟨bound, found, hfound, hsearch⟩ := ihwork (h.skip hvisited)
            refine ⟨bound + 1, found, ?_, fun rounds hrounds => ?_⟩
            · rw [hfound]
              constructor
              · intro hleads
                obtain ⟨other, hother, hleads⟩ := hleads
                exact ⟨other, List.mem_cons_of_mem _ hother, hleads⟩
              · intro hleads
                obtain ⟨other, hother, hleads⟩ := hleads
                rcases List.mem_cons.mp hother with rfl | hother
                · exact h.leads_rest hclosed hvisited hleads
                · exact ⟨other, hother, hleads⟩
            · obtain ⟨k, rfl⟩ := Nat.exists_eq_add_of_le' hrounds
              rw [← Nat.add_assoc, search, if_pos hvisited]
              exact hsearch _ (Nat.le_add_left _ _)
          · by_cases hgoal : goal node = true
            · refine ⟨1, true, ?_, fun rounds hrounds => ?_⟩
              · exact iff_of_true rfl ⟨node, List.mem_cons_self, node, .refl, hgoal⟩
              · obtain ⟨k, rfl⟩ := Nat.exists_eq_add_of_le' hrounds
                rw [search, if_neg hvisited, if_pos hgoal]
            · have hgoal : goal node = false := Bool.not_eq_true _ ▸ hgoal
              have hnode := h.inside node List.mem_cons_self
              obtain ⟨bound, found, hfound, hsearch⟩ :=
                ih _ (hn ▸ length_unvisited_lt hnode hvisited) (h.visit hclosed hkey hgoal) rfl
              refine ⟨bound + 1, found, ?_, fun rounds hrounds => ?_⟩
              · rw [hfound]
                simp only [List.mem_append, List.mem_cons, or_and_right, exists_or,
                  exists_eq_left, leads_iff_next hgoal]
                exact or_comm
              · obtain ⟨k, rfl⟩ := Nat.exists_eq_add_of_le' hrounds
                rw [← Nat.add_assoc, search, if_neg hvisited, if_neg (by simp [hgoal])]
                exact hsearch _ (Nat.le_add_left _ _)

end Search

end SafeWallet
