/-
# Texts joined by a separator

Parts are joined with a separator between them and read back by looking for the
separator from the left. An occurrence does not count if the next character attaches to
it, as a combining character does to the one before it. Nothing is escaped, so the parts
come back exactly if the separator is first met at the end of each of them.
-/

import Mathlib.Data.List.Basic
import Mathlib.Tactic.Common

namespace SafeWallet

namespace Separated

variable {α : Type} [DecidableEq α] (attaches : α → Bool) (sep : List α)

/-- The separator stands at the start of a text and nothing attaches to it. -/
def matchesAt (text : List α) : Bool :=
  sep.isPrefixOf text && !(text.drop sep.length).head?.any attaches

/-- The parts of a text from the left, when `skip` characters of a separator are left. -/
def componentsFrom : ℕ → List α → List (List α)
  | _, [] => [[]]
  | skip + 1, _ :: rest => componentsFrom skip rest
  | 0, c :: rest =>
    if matchesAt attaches sep (c :: rest) then [] :: componentsFrom (sep.length - 1) rest
    else
      match componentsFrom 0 rest with
      | [] => [[c]]
      | first :: others => (c :: first) :: others

/-- The parts of a text between the separators. -/
def components (text : List α) : List (List α) := componentsFrom attaches sep 0 text

/-- Parts with the separator in between. -/
def joined : List (List α) → List α
  | [] => []
  | [last] => last
  | first :: second :: rest => first ++ (sep ++ joined (second :: rest))

/-- The separator is nowhere in a text. -/
def Unseparated (text : List α) : Prop := ∀ i, matchesAt attaches sep (text.drop i) = false

/-- The separator is met at the end of a text that it follows, and not before. -/
def Clear (text : List α) : Prop :=
  ∀ i < text.length, matchesAt attaches sep ((text ++ sep).drop i) = false

/-- A text does not attach to what comes before it. -/
def Free (text : List α) : Prop := text.head?.any attaches = false

/-- Parts that are read back as they are. -/
def Separable : List (List α) → Prop
  | [] => False
  | [last] => Unseparated attaches sep last
  | first :: second :: rest =>
    Clear attaches sep first ∧ Free attaches (joined sep (second :: rest)) ∧
      Separable (second :: rest)

variable {attaches sep} {text : List α}

/-! ## Matches -/

theorem matchesAt_append_self : matchesAt attaches sep (sep ++ text) = true ↔
    Free attaches text := by
  simp [matchesAt, Free]

theorem matchesAt_eq_true_iff : matchesAt attaches sep text = true ↔
    ∃ rest, text = sep ++ rest ∧ Free attaches rest := by
  constructor
  · intro h
    simp only [matchesAt, Bool.and_eq_true, List.isPrefixOf_iff_prefix] at h
    obtain ⟨⟨rest, rfl⟩, hfree⟩ := h
    exact ⟨rest, rfl, by simpa [Free] using hfree⟩
  · rintro ⟨rest, rfl, hfree⟩
    exact matchesAt_append_self.mpr hfree

/-- A match only depends on the characters up to the one behind the separator. -/
theorem matchesAt_append (h : sep.length < text.length) (rest : List α) :
    matchesAt attaches sep (text ++ rest) = matchesAt attaches sep text := by
  have hhead : ((text ++ rest).drop sep.length).head? = (text.drop sep.length).head? := by
    rw [List.drop_append_of_le_length (Nat.le_of_lt h), List.head?_append_of_ne_nil]
    simpa using h
  have hprefix : sep.isPrefixOf (text ++ rest) = sep.isPrefixOf text := by
    rw [Bool.eq_iff_iff, List.isPrefixOf_iff_prefix, List.isPrefixOf_iff_prefix]
    constructor
    · exact fun hsep =>
        List.prefix_of_prefix_length_le hsep (List.prefix_append _ _) (Nat.le_of_lt h)
    · exact fun hsep => hsep.trans (List.prefix_append _ _)
  rw [matchesAt, matchesAt, hhead, hprefix]

/-- What follows the separator does not change where it is met first. -/
theorem clear_iff : Clear attaches sep text ↔
    ∀ rest, ∀ i < text.length, matchesAt attaches sep ((text ++ (sep ++ rest)).drop i) = false := by
  have hsame : ∀ rest, ∀ i < text.length, matchesAt attaches sep ((text ++ (sep ++ rest)).drop i) =
      matchesAt attaches sep ((text ++ sep).drop i) := by
    intro rest i hi
    rw [← List.append_assoc, List.drop_append_of_le_length (by simp; omega)]
    apply matchesAt_append
    simp
    omega
  constructor
  · intro h rest i hi
    rw [hsame rest i hi, h i hi]
  · intro h i hi
    have := h [] i hi
    rwa [hsame [] i hi] at this

/-! ## Parts -/

theorem componentsFrom_eq_drop {skip : ℕ} (h : skip ≤ text.length) :
    componentsFrom attaches sep skip text = components attaches sep (text.drop skip) := by
  induction text generalizing skip with
  | nil =>
      cases Nat.le_zero.mp h
      rfl
  | cons c rest ih =>
      cases skip with
      | zero => rfl
      | succ skip => exact ih (Nat.le_of_succ_le_succ h)

theorem components_ne_nil : components attaches sep text ≠ [] := by
  cases text with
  | nil => simp [components, componentsFrom]
  | cons c rest =>
      unfold components componentsFrom
      split
      · simp
      · split <;> simp

theorem components_nil : components attaches sep [] = [[]] := rfl

theorem components_of_matches (hsep : sep ≠ []) (h : Free attaches text) :
    components attaches sep (sep ++ text) = [] :: components attaches sep text := by
  have hmatch : matchesAt attaches sep (sep ++ text) = true := matchesAt_append_self.mpr h
  obtain ⟨c, rest, rfl⟩ := List.exists_cons_of_ne_nil hsep
  rw [List.cons_append] at hmatch ⊢
  rw [components, componentsFrom, if_pos hmatch, componentsFrom_eq_drop (by simp)]
  simp

theorem components_of_not_matches {c : α} {rest first : List α} {others : List (List α)}
    (h : matchesAt attaches sep (c :: rest) = false)
    (hrest : components attaches sep rest = first :: others) :
    components attaches sep (c :: rest) = (c :: first) :: others := by
  have hfrom : componentsFrom attaches sep 0 rest = first :: others := hrest
  simp [components, componentsFrom, h, hfrom]

/-- The first of several parts ends where the separator is met first. -/
theorem components_eq_cons_iff (hsep : sep ≠ []) {first : List α} {others : List (List α)}
    (hothers : others ≠ []) : components attaches sep text = first :: others ↔
      ∃ rest, text = first ++ (sep ++ rest) ∧
        (∀ i < first.length, matchesAt attaches sep (text.drop i) = false) ∧
        Free attaches rest ∧ components attaches sep rest = others := by
  induction text generalizing first with
  | nil =>
      rw [components_nil]
      constructor
      · intro h
        cases h
        exact absurd rfl hothers
      · rintro ⟨rest, hnil, -⟩
        simp [hsep] at hnil
  | cons c tail ih =>
      cases hmatch : matchesAt attaches sep (c :: tail) with
      | true =>
          obtain ⟨rest, htext, hfree⟩ := matchesAt_eq_true_iff.mp hmatch
          rw [htext, components_of_matches hsep hfree]
          constructor
          · intro h
            cases h
            exact ⟨rest, rfl, by simp, hfree, rfl⟩
          · rintro ⟨rest', heq, hfirst, -, hrest⟩
            cases first with
            | nil =>
                have hsame : rest = rest' := by simpa using heq
                rw [hsame, hrest]
            | cons d first =>
                have hnot := hfirst 0 (by simp)
                rw [List.drop_zero, ← htext, hmatch] at hnot
                cases hnot
      | false =>
          obtain ⟨part, parts, hparts⟩ := List.exists_cons_of_ne_nil
            (@components_ne_nil _ _ attaches sep tail)
          rw [components_of_not_matches hmatch hparts]
          constructor
          · intro h
            cases h
            obtain ⟨rest, htail, hfirst, hfree, hrest⟩ := ih.mp hparts
            refine ⟨rest, by rw [htail]; rfl, fun i hi => ?_, hfree, hrest⟩
            cases i with
            | zero => exact hmatch
            | succ i => exact hfirst i (by simpa using hi)
          · rintro ⟨rest, heq, hfirst, hfree, hrest⟩
            cases first with
            | nil =>
                rw [heq, List.nil_append, matchesAt_append_self.mpr hfree] at hmatch
                cases hmatch
            | cons d first =>
                obtain ⟨rfl, htail⟩ : c = d ∧ tail = first ++ (sep ++ rest) := by
                  simpa using heq
                have hcons := ih.mpr ⟨rest, htail, fun i hi => hfirst (i + 1) (by simpa using hi),
                  hfree, hrest⟩
                rw [hparts] at hcons
                cases hcons
                rfl

/-- A text is one part exactly if the separator is nowhere in it. -/
theorem components_eq_singleton_iff (hsep : sep ≠ []) {part : List α} :
    components attaches sep text = [part] ↔ part = text ∧ Unseparated attaches sep text := by
  induction text generalizing part with
  | nil =>
      rw [components_nil]
      constructor
      · intro h
        cases h
        refine ⟨rfl, fun i => ?_⟩
        obtain ⟨c, rest, rfl⟩ := List.exists_cons_of_ne_nil hsep
        simp [matchesAt]
      · rintro ⟨rfl, -⟩
        rfl
  | cons c tail ih =>
      cases hmatch : matchesAt attaches sep (c :: tail) with
      | true =>
          obtain ⟨rest, htext, hfree⟩ := matchesAt_eq_true_iff.mp hmatch
          constructor
          · intro h
            rw [htext, components_of_matches hsep hfree] at h
            exact absurd (List.cons.inj h).2 components_ne_nil
          · rintro ⟨-, hnot⟩
            have := hnot 0
            rw [List.drop_zero, hmatch] at this
            cases this
      | false =>
          obtain ⟨first, others, hparts⟩ := List.exists_cons_of_ne_nil
            (@components_ne_nil _ _ attaches sep tail)
          rw [components_of_not_matches hmatch hparts]
          constructor
          · intro h
            cases h
            obtain ⟨rfl, hnot⟩ := ih.mp hparts
            refine ⟨rfl, fun i => ?_⟩
            cases i with
            | zero => exact hmatch
            | succ i => exact hnot i
          · rintro ⟨rfl, hnot⟩
            have hsingle := ih.mpr ⟨rfl, fun i => hnot (i + 1)⟩
            rw [hparts] at hsingle
            cases hsingle
            rfl

/-- Joining the parts gives the text back. -/
theorem joined_components (hsep : sep ≠ []) (text : List α) :
    joined sep (components attaches sep text) = text := by
  generalize hparts : components attaches sep text = parts
  induction parts generalizing text with
  | nil => exact absurd hparts components_ne_nil
  | cons first others ih =>
      cases others with
      | nil => exact ((components_eq_singleton_iff hsep).mp hparts).1
      | cons second rest =>
          obtain ⟨tail, rfl, -, -, htail⟩ :=
            (components_eq_cons_iff hsep (List.cons_ne_nil _ _)).mp hparts
          rw [joined, ih tail htail]

/-- Parts come back exactly if they are separable. -/
theorem components_joined_iff (hsep : sep ≠ []) {parts : List (List α)} (hparts : parts ≠ []) :
    components attaches sep (joined sep parts) = parts ↔ Separable attaches sep parts := by
  induction parts with
  | nil => exact absurd rfl hparts
  | cons first others ih =>
      cases others with
      | nil => simp [joined, Separable, components_eq_singleton_iff hsep]
      | cons second rest =>
          have ih := ih (List.cons_ne_nil _ _)
          rw [joined, components_eq_cons_iff hsep (List.cons_ne_nil _ _), Separable, ← ih]
          constructor
          · rintro ⟨tail, htail, hfirst, hfree, hrest⟩
            have hsame : joined sep (second :: rest) = tail := by simpa using htail
            rw [hsame]
            refine ⟨clear_iff.mpr fun rest' i hi => ?_, hfree, hrest⟩
            have hclear : Clear attaches sep first := by
              intro j hj
              have := hfirst j hj
              rw [htail, ← List.append_assoc, List.drop_append_of_le_length (by simp; omega),
                matchesAt_append (by simp; omega)] at this
              exact this
            exact clear_iff.mp hclear rest' i hi
          · rintro ⟨hclear, hfree, hrest⟩
            exact ⟨_, rfl, clear_iff.mp hclear _, hfree, hrest⟩

/-! ## Where the separator is not -/

theorem unseparated_of_not_mem {c : α} (hc : c ∈ sep) (h : c ∉ text) :
    Unseparated attaches sep text := by
  intro i
  by_contra hmatch
  obtain ⟨rest, hdrop, -⟩ := matchesAt_eq_true_iff.mp (by simpa using hmatch)
  have hmem : c ∈ text.drop i := by
    rw [hdrop]
    exact List.mem_append_left _ hc
  exact h (List.mem_of_mem_drop hmem)

theorem not_matchesAt_nil (hsep : sep ≠ []) : matchesAt attaches sep [] = false := by
  obtain ⟨c, rest, rfl⟩ := List.exists_cons_of_ne_nil hsep
  simp [matchesAt]

/-- A foreign character that does not attach divides the search. -/
theorem unseparated_append_iff (hsep : sep ≠ []) {first second : List α} {c : α} (hc : c ∉ sep)
    (hfree : attaches c = false) : Unseparated attaches sep (first ++ c :: second) ↔
      Unseparated attaches sep first ∧ Unseparated attaches sep second := by
  constructor
  · intro h
    constructor
    · intro i
      by_contra hmatch
      obtain ⟨rest, hdrop, hrest⟩ := matchesAt_eq_true_iff.mp (by simpa using hmatch)
      have hi : i ≤ first.length := by
        by_contra hlong
        rw [List.drop_of_length_le (by omega)] at hdrop
        exact hsep (List.append_eq_nil_iff.mp hdrop.symm).1
      have hfound : matchesAt attaches sep ((first ++ c :: second).drop i) = true := by
        refine matchesAt_eq_true_iff.mpr ⟨rest ++ c :: second, ?_, ?_⟩
        · rw [List.drop_append_of_le_length hi, hdrop, List.append_assoc]
        · cases rest with
          | nil => simp [Free, hfree]
          | cons d rest => exact hrest
      rw [h i] at hfound
      cases hfound
    · intro i
      have hdrop : (first ++ c :: second).drop (first.length + 1 + i) = second.drop i := by
        simp [Nat.add_assoc, Nat.add_comm 1 i]
      rw [← hdrop]
      exact h _
  · rintro ⟨hfirst, hsecond⟩ i
    by_contra hmatch
    obtain ⟨rest, hdrop, hrest⟩ := matchesAt_eq_true_iff.mp (by simpa using hmatch)
    by_cases hi : i ≤ first.length
    · rw [List.drop_append_of_le_length hi] at hdrop
      rcases List.append_eq_append_iff.mp hdrop with
        ⟨middle, hsplit, htail⟩ | ⟨middle, hsplit, htail⟩
      · cases middle with
        | nil =>
            have hfound : matchesAt attaches sep (first.drop i) = true :=
              matchesAt_eq_true_iff.mpr ⟨[], by simpa using hsplit.symm, rfl⟩
            rw [hfirst i] at hfound
            cases hfound
        | cons d middle =>
            cases htail
            exact hc (by simp [hsplit])
      · have hfound : matchesAt attaches sep (first.drop i) = true := by
          refine matchesAt_eq_true_iff.mpr ⟨middle, hsplit, ?_⟩
          cases middle with
          | nil => rfl
          | cons d middle =>
              rw [htail] at hrest
              exact hrest
        rw [hfirst i] at hfound
        cases hfound
    · have hafter : (first ++ c :: second).drop i = second.drop (i - (first.length + 1)) := by
        rw [List.drop_append, List.drop_of_length_le (by omega), List.nil_append,
          show i - first.length = i - (first.length + 1) + 1 by omega, List.drop_succ_cons]
      have hfound : matchesAt attaches sep (second.drop (i - (first.length + 1))) = true := by
        rw [← hafter, hdrop]
        exact matchesAt_append_self.mpr hrest
      rw [hsecond] at hfound
      cases hfound

/-- A separator of one repeated character is met at the end of a text exactly if the text
neither has it nor ends in that character. -/
theorem clear_replicate_iff {c : α} {n : ℕ} (hn : 0 < n) (hc : attaches c = false) :
    Clear attaches (List.replicate n c) text ↔
      Unseparated attaches (List.replicate n c) text ∧ text.getLast? ≠ some c := by
  constructor
  · intro h
    constructor
    · intro i
      by_contra hmatch
      obtain ⟨rest, hdrop, hrest⟩ := matchesAt_eq_true_iff.mp (by simpa using hmatch)
      have hi : i < text.length := by
        by_contra hlong
        rw [List.drop_of_length_le (by omega)] at hdrop
        simp [Nat.pos_iff_ne_zero.mp hn] at hdrop
      have hfound : matchesAt attaches (List.replicate n c)
          ((text ++ List.replicate n c).drop i) = true := by
        refine matchesAt_eq_true_iff.mpr ⟨rest ++ List.replicate n c, ?_, ?_⟩
        · rw [List.drop_append_of_le_length (Nat.le_of_lt hi), hdrop, List.append_assoc]
        · cases rest with
          | nil => simp [Free, List.head?_replicate, Nat.pos_iff_ne_zero.mp hn, hc]
          | cons d rest => exact hrest
      rw [h i hi] at hfound
      cases hfound
    · intro hlast
      obtain ⟨init, rfl⟩ := List.getLast?_eq_some_iff.mp hlast
      have hfound : matchesAt attaches (List.replicate n c)
          ((init ++ [c] ++ List.replicate n c).drop init.length) = true := by
        refine matchesAt_eq_true_iff.mpr ⟨[c], ?_, by simp [Free, hc]⟩
        rw [List.append_assoc, List.drop_left, List.singleton_append, ← List.replicate_succ,
          List.replicate_succ']
      rw [h init.length (by simp)] at hfound
      cases hfound
  · rintro ⟨hnot, hlast⟩ i hi
    by_contra hmatch
    obtain ⟨rest, hdrop, hrest⟩ := matchesAt_eq_true_iff.mp (by simpa using hmatch)
    rw [List.drop_append_of_le_length (Nat.le_of_lt hi)] at hdrop
    rcases List.append_eq_append_iff.mp hdrop with ⟨middle, hsplit, -⟩ | ⟨middle, hsplit, htail⟩
    -- The match begins inside the text and ends in the separator that follows.
    · have hall : ∀ d ∈ text.drop i, d = c := by
        intro d hd
        have hmem : d ∈ List.replicate n c := by
          rw [hsplit]
          exact List.mem_append_left _ hd
        exact List.eq_of_mem_replicate hmem
      have hne : text.drop i ≠ [] := by simpa using hi
      have hend : (text.drop i).getLast? = text.getLast? := by
        rw [List.getLast?_drop, if_neg (Nat.not_le.mpr hi)]
      apply hlast
      rw [← hend, List.getLast?_eq_some_getLast hne, hall _ (List.getLast_mem hne)]
    · have hfound : matchesAt attaches (List.replicate n c) (text.drop i) = true := by
        refine matchesAt_eq_true_iff.mpr ⟨middle, hsplit, ?_⟩
        cases middle with
        | nil => rfl
        | cons d middle =>
            rw [htail] at hrest
            exact hrest
      rw [hnot i] at hfound
      cases hfound

theorem unseparated_nil (hsep : sep ≠ []) : Unseparated attaches sep [] := by
  intro i
  rw [List.drop_nil]
  exact not_matchesAt_nil hsep

/-- So does a separator of such characters. -/
theorem unseparated_append_sep_iff (hsep : sep ≠ []) {sep' first second : List α}
    (hne : sep' ≠ []) (hforeign : ∀ c ∈ sep', c ∉ sep ∧ attaches c = false) :
    Unseparated attaches sep (first ++ (sep' ++ second)) ↔
      Unseparated attaches sep first ∧ Unseparated attaches sep second := by
  induction sep' generalizing first with
  | nil => exact absurd rfl hne
  | cons c rest ih =>
      obtain ⟨hc, hfree⟩ := hforeign c List.mem_cons_self
      rw [List.cons_append, unseparated_append_iff hsep hc hfree]
      cases rest with
      | nil => rfl
      | cons d rest =>
          have ih := @ih [] (List.cons_ne_nil _ _) fun e he =>
            hforeign e (List.mem_cons_of_mem _ he)
          rw [List.nil_append] at ih
          rw [ih, and_iff_right (unseparated_nil hsep)]

/-- A text that is joined by a foreign separator is searched part by part. -/
theorem unseparated_joined_iff (hsep : sep ≠ []) {sep' : List α} (hne : sep' ≠ [])
    (hforeign : ∀ c ∈ sep', c ∉ sep ∧ attaches c = false) {parts : List (List α)} :
    Unseparated attaches sep (joined sep' parts) ↔
      ∀ part ∈ parts, Unseparated attaches sep part := by
  induction parts with
  | nil => simp [joined, unseparated_nil hsep]
  | cons first others ih =>
      cases others with
      | nil => simp [joined]
      | cons second rest =>
          rw [joined, unseparated_append_sep_iff hsep hne hforeign, ih]
          simp only [List.forall_mem_cons]

omit [DecidableEq α] in
/-- Joined parts attach to what comes before them as the first one does. -/
theorem free_joined_iff {c : α} {rest' : List α} (hc : attaches c = false) {first : List α}
    {others : List (List α)} :
    Free attaches (joined (c :: rest') (first :: others)) ↔ Free attaches first := by
  cases others with
  | nil => rfl
  | cons second rest =>
      cases first with
      | nil => simp [joined, Free, hc]
      | cons d first => simp [joined, Free]

/-- Parts in which one separating character is not met come back, if none ends in it or
attaches to it. -/
theorem separable_of_parts {c : α} (hc : attaches c = false) {parts : List (List α)}
    (hne : parts ≠ []) (hparts : ∀ part ∈ parts, Unseparated attaches [c] part ∧
      part.getLast? ≠ some c ∧ Free attaches part) : Separable attaches [c] parts := by
  induction parts with
  | nil => exact absurd rfl hne
  | cons first others ih =>
      obtain ⟨hnot, hlast, -⟩ := hparts first List.mem_cons_self
      cases others with
      | nil => exact hnot
      | cons second rest =>
          have hclear : Clear attaches (List.replicate 1 c) first :=
            (clear_replicate_iff Nat.one_pos hc).mpr ⟨hnot, hlast⟩
          have hfree := (hparts second (by simp)).2.2
          exact ⟨hclear, (free_joined_iff hc).mpr hfree,
            ih (List.cons_ne_nil _ _) fun part hpart => hparts part (List.mem_cons_of_mem _ hpart)⟩

theorem separable_of_not_mem {c : α} (hc : attaches c = false) {parts : List (List α)}
    (hne : parts ≠ []) (hparts : ∀ part ∈ parts, c ∉ part ∧ Free attaches part) :
    Separable attaches [c] parts := by
  refine separable_of_parts hc hne fun part hpart => ?_
  obtain ⟨hnot, hfree⟩ := hparts part hpart
  exact ⟨unseparated_of_not_mem List.mem_cons_self hnot,
    fun hlast => hnot (List.mem_of_getLast? hlast), hfree⟩

/-- In parts that come back the separating character is not met. -/
theorem unseparated_of_separable {c : α} (hc : attaches c = false) {parts : List (List α)}
    (h : Separable attaches [c] parts) : ∀ part ∈ parts, Unseparated attaches [c] part := by
  induction parts with
  | nil => cases h
  | cons first others ih =>
      cases others with
      | nil =>
          intro part hpart
          rw [List.mem_singleton.mp hpart]
          exact h
      | cons second rest =>
          obtain ⟨hclear, -, hrest⟩ := h
          have hfirst := ((clear_replicate_iff Nat.one_pos hc).mp hclear).1
          exact List.forall_mem_cons.mpr ⟨hfirst, ih hrest⟩

omit [DecidableEq α] in
theorem mem_joined {parts : List (List α)} {c : α} (h : c ∈ joined sep parts) :
    c ∈ sep ∨ ∃ part ∈ parts, c ∈ part := by
  induction parts with
  | nil => cases h
  | cons first others ih =>
      cases others with
      | nil => exact .inr ⟨first, List.mem_cons_self, h⟩
      | cons second rest =>
          rw [joined, List.mem_append, List.mem_append] at h
          rcases h with h | h | h
          · exact .inr ⟨first, List.mem_cons_self, h⟩
          · exact .inl h
          · rcases ih h with h | ⟨part, hpart, h⟩
            · exact .inl h
            · exact .inr ⟨part, List.mem_cons_of_mem _ hpart, h⟩

omit [DecidableEq α] in
theorem mem_joined_of_mem {parts : List (List α)} {part : List α} {c : α} (hpart : part ∈ parts)
    (h : c ∈ part) : c ∈ joined sep parts := by
  induction parts with
  | nil => cases hpart
  | cons first others ih =>
      cases others with
      | nil =>
          cases List.mem_singleton.mp hpart
          exact h
      | cons second rest =>
          rcases List.mem_cons.mp hpart with rfl | hpart
          · exact List.mem_append_left _ h
          · exact List.mem_append_right _ (List.mem_append_right _ (ih hpart))

end Separated

end SafeWallet
