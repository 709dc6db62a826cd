/-
# Splitting at a separator

A collection is split from the left. Empty parts are dropped and are not counted, so a
split that stops after its first part looks for that part behind all the separators in
front of it. What is left behind the last separator used is the last part as it stands,
separators included, unless nothing is left.

A text is split as a collection of characters, and a character may be several scalars: one
that combines joins the character before it. A separator counts where it is a character by
itself.
-/

import Mathlib.Data.List.Basic
import Mathlib.Data.List.SplitBy
import SafeWallet.Base.Separators

namespace SafeWallet

/-- How a text is divided into characters: from the left, so that what begins with a character
is divided alone as it is within a text. ASCII, but for line breaks, does not combine. -/
structure Characters where
  ofText : List Char → List (List Char)
  flatten_ofText : ∀ text, (ofText text).flatten = text
  nil_notMem : ∀ text, [] ∉ ofText text
  ofText_flatten : ∀ {text front back}, ofText text = front ++ back → ofText back.flatten = back
  ofText_ascii : ∀ {text}, (∀ c ∈ text, c.toNat < 128 ∧ c ≠ '\r') →
    ofText text = text.map fun c => [c]

namespace Characters

theorem ofText_nil (characters : Characters) : characters.ofText [] = [] :=
  @characters.ofText_ascii [] fun _ hmem => absurd hmem List.not_mem_nil

theorem ofText_ne_nil {characters : Characters} {text : List Char} (h : text ≠ []) :
    characters.ofText text ≠ [] := by
  intro hnil
  apply h
  rw [← characters.flatten_ofText text, hnil]
  rfl

/-- The characters behind the first ones are fewer scalars. -/
theorem length_flatten_lt {characters : Characters} {text : List Char}
    {front back : List (List Char)} (h : characters.ofText text = front ++ back)
    (hne : front ≠ []) : back.flatten.length < text.length := by
  obtain ⟨first, others, rfl⟩ := List.exists_cons_of_ne_nil hne
  have hfirst : first ≠ [] := by
    rintro rfl
    exact characters.nil_notMem text (by simp [h])
  have hpos := List.length_pos_iff.mpr hfirst
  have htext := characters.flatten_ofText text
  rw [h] at htext
  rw [← htext]
  simp only [List.flatten_append, List.flatten_cons, List.length_append]
  omega

/-- Each scalar begins a character, unless it combines with the one before it. -/
def ofCombining (combining : Char → Bool)
    (hascii : ∀ c : Char, c.toNat < 128 → combining c = false) : Characters where
  ofText text := text.splitBy fun _ c => combining c
  flatten_ofText text := List.flatten_splitBy _ text
  nil_notMem text := List.nil_notMem_splitBy _ text
  ofText_flatten {text front back} h := by
    refine List.splitBy_flatten (fun hmem => ?_) (fun part hmem => ?_) ?_
    · exact List.nil_notMem_splitBy _ text (h ▸ List.mem_append_right _ hmem)
    · exact List.isChain_of_mem_splitBy (h ▸ List.mem_append_right _ hmem)
    · have hchain := List.isChain_getLast_head_splitBy (fun _ c => combining c) text
      rw [h] at hchain
      exact hchain.right_of_append
  ofText_ascii {text} h := by
    have hflatten : (text.map fun c => [c]).flatten = text := by
      induction text <;> simp_all
    conv_lhs => rw [← hflatten]
    refine List.splitBy_flatten (by simp) (by simp) ?_
    rw [List.isChain_map]
    refine List.Pairwise.isChain (List.pairwise_of_forall_mem_list fun _ _ c hc => ?_)
    exact ⟨by simp, by simp, hascii c (h c hc).1⟩

end Characters

namespace Splitting

variable {α : Type} [DecidableEq α] (separator : α)

/-- The loop of `split(separator:maxSplits:)`: a part that has been read so far, and the number
of splits that are left. -/
def splitFrom (left : ℕ) : (part text : List α) → List (List α)
  | part, [] => if part = [] then [] else [part]
  | part, c :: rest =>
    if c = separator then
      if part = [] then splitFrom left [] rest
      else if left = 1 then part :: (if rest = [] then [] else [rest])
      else part :: splitFrom (left - 1) [] rest
    else splitFrom left (part ++ [c]) rest

/-- `split(separator:maxSplits:)`, which drops empty parts. -/
def split (maxSplits : ℕ) (text : List α) : List (List α) :=
  if maxSplits = 0 ∨ text = [] then if text = [] then [] else [text]
  else splitFrom separator maxSplits [] text

variable {separator} {left : ℕ} {part text : List α}

/-- A text without separators is one part. -/
theorem splitFrom_of_not_mem (h : separator ∉ text) :
    splitFrom separator left part text = if part ++ text = [] then [] else [part ++ text] := by
  induction text generalizing part with
  | nil => simp [splitFrom]
  | cons c rest ih =>
      obtain ⟨hc, hrest⟩ : separator ≠ c ∧ separator ∉ rest := by simpa using h
      rw [splitFrom, if_neg (Ne.symm hc), ih hrest]
      simp

/-- The single split ends the first part at the separator behind it. -/
theorem splitFrom_one_append (h : separator ∉ text) (hne : part ++ text ≠ []) (rest : List α) :
    splitFrom separator 1 part (text ++ separator :: rest) =
      (part ++ text) :: (if rest = [] then [] else [rest]) := by
  induction text generalizing part with
  | nil =>
      rw [List.append_nil] at hne ⊢
      simp [splitFrom, hne]
  | cons c text ih =>
      obtain ⟨hc, htext⟩ : separator ≠ c ∧ separator ∉ text := by simpa using h
      rw [List.cons_append, splitFrom, if_neg (Ne.symm hc), ih htext (by simp)]
      simp

/-- One split leaves nothing, one part, or a part and what is behind it. -/
theorem splitFrom_one_cases (part text : List α) :
    splitFrom separator 1 part text = [] ∨ (∃ first, splitFrom separator 1 part text = [first]) ∨
      ∃ first rest, splitFrom separator 1 part text = [first, rest] ∧
        ∃ front, front ≠ [] ∧ text = front ++ rest := by
  induction text generalizing part with
  | nil => by_cases hpart : part = [] <;> simp [splitFrom, hpart]
  | cons c tail ih =>
      have hshorter (part : List α) (h : splitFrom separator 1 part (c :: tail) =
          splitFrom separator 1 (if c = separator then [] else part ++ [c]) tail) :
          splitFrom separator 1 part (c :: tail) = [] ∨
            (∃ first, splitFrom separator 1 part (c :: tail) = [first]) ∨
            ∃ first rest, splitFrom separator 1 part (c :: tail) = [first, rest] ∧
              ∃ front, front ≠ [] ∧ c :: tail = front ++ rest := by
        rw [h]
        obtain hnone | hone | ⟨first, rest, heq, front, -, htail⟩ :=
          ih (if c = separator then [] else part ++ [c])
        · exact .inl hnone
        · exact .inr (.inl hone)
        · exact .inr (.inr ⟨first, rest, heq, c :: front, by simp, by rw [htail]; rfl⟩)
      by_cases hc : c = separator
      · by_cases hpart : part = []
        · exact hshorter part (by simp [splitFrom, hc, hpart])
        · by_cases htail : tail = []
          · exact .inr (.inl ⟨part, by simp [splitFrom, hc, hpart, htail]⟩)
          · exact .inr (.inr ⟨part, tail, by simp [splitFrom, hc, hpart, htail], [c], by simp,
              rfl⟩)
      · exact hshorter part (by simp [splitFrom, hc])

/-- Of labels joined by separators the first one is split off. -/
theorem split_one_joined {first : List α} (hne : first ≠ []) (h : separator ∉ first)
    (others : List (List α)) (hothers : ∀ label ∈ others, label ≠ []) :
    split separator 1 (Separated.joined [separator] (first :: others)) =
      first :: (if others = [] then [] else [Separated.joined [separator] others]) := by
  cases others with
  | nil =>
      have hjoined : Separated.joined [separator] [first] = first := rfl
      rw [hjoined, split, if_neg (by simpa using hne), splitFrom_of_not_mem h]
      simp [hne]
  | cons second others =>
      have hrest : Separated.joined [separator] (second :: others) ≠ [] := by
        have hsecond := hothers second List.mem_cons_self
        cases others with
        | nil => exact hsecond
        | cons third others => simp [Separated.joined, hsecond]
      rw [Separated.joined, split, if_neg (by simp), List.singleton_append,
        splitFrom_one_append h (by simpa using hne)]
      simp [hrest]

end Splitting

end SafeWallet
