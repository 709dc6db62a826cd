/-
# The order of the displayed tokens

The whitelisted tokens have different sorting numbers and the others have none. A write
keeps this if it leaves the number of a whitelisted token alone, which every operation does
but whitelisting a token that already is whitelisted. Updating the tokens of a Safe does
just that: it whitelists every token it finds, also those it has whitelisted a moment ago.
-/

import SafeWallet.Tokens.TokenList

namespace SafeWallet

namespace TokenListItemRepository

/-- Whitelisted items are numbered differently and no other item is numbered. -/
structure Ordered (items : TokenListItems) : Prop where
  numbered : ∀ item ∈ items.rows, item.status = .whitelisted → item.sortingId ≠ none
  distinct : ∀ item ∈ items.rows, ∀ other ∈ items.rows, item.status = .whitelisted →
    other.status = .whitelisted → item.sortingId = other.sortingId → item = other
  unnumbered : ∀ item ∈ items.rows, item.status ≠ .whitelisted → item.sortingId = none

variable {items items' : TokenListItems} {item existing : TokenListItem}

theorem ordered_empty : Ordered Table.empty := by
  constructor <;> simp [Table.empty]

/-- Fewer rows are still ordered. -/
theorem Ordered.mono (h : Ordered items) (hsub : ∀ item ∈ items'.rows, item ∈ items.rows) :
    Ordered items' where
  numbered item hmem := h.numbered item (hsub item hmem)
  distinct item hmem other hother := h.distinct item (hsub item hmem) other (hsub other hother)
  unnumbered item hmem := h.unnumbered item (hsub item hmem)

/-! ## Sorting numbers -/

instance : Std.Total fun first second : TokenListItem =>
    precedes first.sortingId second.sortingId = true where
  total first second := by
    cases first.sortingId <;> cases second.sortingId <;> simp [precedes, le_total]

instance : IsTrans TokenListItem fun first second =>
    precedes first.sortingId second.sortingId = true where
  trans first second third := by
    cases first.sortingId <;> cases second.sortingId <;> cases third.sortingId <;>
      simp [precedes]
    exact fun h h' => h.trans h'

theorem mem_whitelisted :
    item ∈ whitelisted items ↔ item ∈ items.rows ∧ item.status = .whitelisted := by
  simp [whitelisted]

theorem pairwise_whitelisted (items : TokenListItems) : (whitelisted items).Pairwise
    fun first second => precedes first.sortingId second.sortingId = true :=
  List.pairwise_insertionSort _ _

/-- The greatest number in use, one less than the next one. -/
def lastWhitelistedId (items : TokenListItems) : ℤ :=
  ((whitelisted items).getLast?.bind TokenListItem.sortingId).getD (-1)

/-- No whitelisted item has a greater number than the last one. -/
theorem le_lastWhitelistedId {number : ℤ} (hmem : item ∈ whitelisted items)
    (hnumber : item.sortingId = some number) :
    number ≤ lastWhitelistedId items := by
  have hne : whitelisted items ≠ [] := List.ne_nil_of_mem hmem
  have hsplit := List.dropLast_append_getLast hne
  have hprecedes : precedes item.sortingId ((whitelisted items).getLast hne).sortingId = true := by
    have hpairwise := pairwise_whitelisted items
    rw [← hsplit, List.pairwise_append] at hpairwise
    rw [← hsplit, List.mem_append, List.mem_singleton] at hmem
    rcases hmem with hfront | hlast
    · exact hpairwise.2.2 item hfront _ (List.mem_singleton.mpr rfl)
    · rw [← hlast, hnumber]
      simp [precedes]
  rw [lastWhitelistedId, List.getLast?_eq_some_getLast hne, Option.bind_some]
  cases hlast : ((whitelisted items).getLast hne).sortingId with
  | none => simp [hlast, hnumber, precedes] at hprecedes
  | some last => simpa [hlast, hnumber, precedes] using hprecedes

/-! ## One write -/

/-- `prepareToSave` case by case. -/
theorem prepareToSave_spec (items : TokenListItems) (hether : item.token.id ≠ Token.Ether.id) :
    (∃ existing, Table.find items item.token.id = some existing ∧
      existing.status = .whitelisted ∧ item.status = .whitelisted ∧
      prepareToSave items item = item) ∨
    (item.status ≠ .whitelisted ∧ (prepareToSave items item = { item with sortingId := none } ∨
      (∀ existing, Table.find items item.token.id = some existing →
        existing.status ≠ .whitelisted) ∧ prepareToSave items item = item)) ∨
    (item.status = .whitelisted ∧
      (∀ existing, Table.find items item.token.id = some existing →
        existing.status ≠ .whitelisted) ∧
      prepareToSave items item =
        { item with sortingId := some (lastWhitelistedId items + 1) }) := by
  unfold prepareToSave find lastWhitelistedId
  rw [if_neg hether]
  cases hfind : Table.find items item.token.id with
  | none =>
      by_cases hitem : item.status = .whitelisted
      · exact .inr (.inr ⟨hitem, by simp, by simp [hitem]⟩)
      · exact .inr (.inl ⟨hitem, .inr ⟨by simp, by simp [hitem]⟩⟩)
  | some existing =>
      by_cases hexisting : existing.status = .whitelisted
      · by_cases hitem : item.status = .whitelisted
        · exact .inl ⟨existing, rfl, hexisting, hitem, by simp [hexisting, hitem]⟩
        · exact .inr (.inl ⟨hitem, .inl (by simp [hexisting, hitem])⟩)
      · by_cases hitem : item.status = .whitelisted
        · exact .inr (.inr ⟨hitem, by simp [hexisting], by simp [hexisting, hitem]⟩)
        · exact .inr (.inl ⟨hitem, .inr ⟨by simp [hexisting], by simp [hexisting, hitem]⟩⟩)

/-- A prepared item differs in its number only. -/
theorem prepareToSave_eq (items : TokenListItems) (item : TokenListItem) :
    ∃ number, prepareToSave items item = { item with sortingId := number } := by
  unfold prepareToSave
  split
  · split
    · exact ⟨none, rfl⟩
    · exact ⟨item.sortingId, rfl⟩
  · split
    · exact ⟨_, rfl⟩
    · exact ⟨item.sortingId, rfl⟩

/-- An item with the status of the stored one is saved as it is. -/
theorem prepareToSave_of_same_status (hether : item.token.id ≠ Token.Ether.id)
    (hfind : Table.find items item.token.id = some existing)
    (hstatus : existing.status = item.status) : prepareToSave items item = item := by
  by_cases hwhite : item.status = .whitelisted
  · simp [prepareToSave, find, hether, hfind, hstatus, hwhite]
  · simp [prepareToSave, find, hether, hfind, hstatus, hwhite]

/-- An item may be saved: a whitelisted token keeps its number, and what is not whitelisted
brings none. -/
structure Saveable (items : TokenListItems) (item : TokenListItem) : Prop where
  not_ether : item.token.id ≠ Token.Ether.id
  keeps : ∀ existing, Table.find items item.token.id = some existing →
    existing.status = .whitelisted → item.status = .whitelisted →
      item.sortingId = existing.sortingId
  plain : item.status ≠ .whitelisted → item.sortingId = none

theorem save_ordered (h : Ordered items) (hitem : Saveable items item) :
    Ordered (save items item) := by
  obtain ⟨number, hprepared⟩ := prepareToSave_eq items item
  have hid : (prepareToSave items item).token.id = item.token.id := by rw [hprepared]
  have hstatus : (prepareToSave items item).status = item.status := by rw [hprepared]
  -- The new row is numbered like its predecessor, higher than all others, or not at all.
  have hnew : item.status = .whitelisted → (prepareToSave items item).sortingId ≠ none ∧
      ∀ other ∈ items.rows, other.token.id ≠ item.token.id → other.status = .whitelisted →
        (prepareToSave items item).sortingId ≠ other.sortingId := by
    intro hwhitelisted
    rcases prepareToSave_spec items hitem.not_ether with
      ⟨existing, hfind, hexisting, -, heq⟩ | ⟨hnot, -⟩ | ⟨-, -, heq⟩
    · obtain ⟨hmem, hkey⟩ := Table.mem_of_find hfind
      rw [heq, hitem.keeps existing hfind hexisting hwhitelisted]
      refine ⟨h.numbered existing hmem hexisting, fun other hother hne hwhite hsame => hne ?_⟩
      rw [← h.distinct existing hmem other hother hexisting hwhite hsame, hkey]
    · exact absurd hwhitelisted hnot
    · rw [heq]
      refine ⟨by simp, fun other hother _ hwhite hsame => ?_⟩
      have := le_lastWhitelistedId (mem_whitelisted.mpr ⟨hother, hwhite⟩) hsame.symm
      omega
  constructor
  · intro row hrow hwhite
    rcases Table.mem_rows_save.mp hrow with rfl | ⟨hmem, -⟩
    · exact (hnew (hstatus ▸ hwhite)).1
    · exact h.numbered row hmem hwhite
  · intro row hrow other hother hwhite hwhite' hsame
    rcases Table.mem_rows_save.mp hrow with rfl | ⟨hmem, hne⟩ <;>
      rcases Table.mem_rows_save.mp hother with rfl | ⟨hmem', hne'⟩
    · rfl
    · exact absurd hsame ((hnew (hstatus ▸ hwhite)).2 other hmem' (hid ▸ hne') hwhite')
    · exact absurd hsame.symm ((hnew (hstatus ▸ hwhite')).2 row hmem (hid ▸ hne) hwhite)
    · exact h.distinct row hmem other hmem' hwhite hwhite' hsame
  · intro row hrow hplain
    rcases Table.mem_rows_save.mp hrow with rfl | ⟨hmem, -⟩
    · rw [hstatus] at hplain
      rcases prepareToSave_spec items hitem.not_ether with
        ⟨-, -, -, hwhite, -⟩ | ⟨-, heq | ⟨-, heq⟩⟩ | ⟨hwhite, -⟩
      · exact absurd hwhite hplain
      · rw [heq]
      · rw [heq, hitem.plain hplain]
      · exact absurd hwhite hplain
    · exact h.unnumbered row hmem hplain

/-- What is found after a write. -/
theorem find_save (items : TokenListItems) (item : TokenListItem) (id : String) :
    Table.find (save items item) id =
      if item.token.id = id then some (prepareToSave items item) else Table.find items id := by
  obtain ⟨number, hprepared⟩ := prepareToSave_eq items item
  have hid : (prepareToSave items item).token.id = item.token.id := by rw [hprepared]
  rw [save, Table.find_save]
  simp only [hid]

/-! ## Whitelisting and blacklisting -/

theorem find_of_not_ether {id : String} (h : id ≠ Token.Ether.id) :
    find items id = Table.find items id := by
  rw [find, if_neg h]

theorem whitelist_ordered (h : Ordered items) {token : Token} (hether : token.id ≠ Token.Ether.id)
    (hplain : ∀ existing, Table.find items token.id = some existing →
      existing.status ≠ .whitelisted) (hdone : whitelist items token = .ok items') :
    Ordered items' := by
  simp only [whitelist, Trapping.bind_eq_ok_iff] at hdone
  obtain ⟨existing, -, hdone⟩ := hdone
  cases hdone
  exact save_ordered h {
    not_ether := hether
    keeps := fun found hfound hwhite _ => absurd hwhite (hplain found hfound)
    plain := fun hnot => absurd rfl hnot }

theorem blacklist_ordered (h : Ordered items) {token : Token} (hether : token.id ≠ Token.Ether.id)
    (hdone : blacklist items token = .ok items') : Ordered items' := by
  simp only [blacklist, Trapping.bind_eq_ok_iff] at hdone
  obtain ⟨existing, -, hdone⟩ := hdone
  cases hdone
  exact save_ordered h {
    not_ether := hether
    keeps := fun _ _ _ hwhite => by cases hwhite
    plain := fun _ => rfl }

/-! ## Rearranging -/

/-- The loop of `rearrange`, when the tokens up to an index have been numbered. -/
structure Rearranging (order : List String) (queried : List TokenListItem) (index : ℕ)
    (rest : List Token) (items : TokenListItems) : Prop where
  rest_eq : rest.map Token.id = order.drop index
  listed : ∀ item ∈ items.rows, item.status = .whitelisted → item.token.id ∈ order
  numbered : ∀ item ∈ items.rows, item.status = .whitelisted →
    item.token.id ∉ rest.map Token.id → item.sortingId = some (order.idxOf item.token.id : ℤ)
  unnumbered : ∀ item ∈ items.rows, item.status ≠ .whitelisted → item.sortingId = none
  queried_eq : ∀ token ∈ rest, ∃ item, (queried.find? fun item => item.token.id = token.id) =
    some item ∧ Table.find items token.id = some item ∧ item.status = .whitelisted

theorem Rearranging.ordered {order : List String} {queried : List TokenListItem} {index : ℕ}
    (h : Rearranging order queried index [] items) : Ordered items where
  numbered item hmem hwhite := by
    rw [h.numbered item hmem hwhite (by simp)]
    simp
  distinct item hmem other hother hwhite hwhite' hsame := by
    rw [h.numbered item hmem hwhite (by simp), h.numbered other hother hwhite' (by simp)] at hsame
    have hindex : order.idxOf item.token.id = order.idxOf other.token.id := by
      exact_mod_cast Option.some.inj hsame
    have hid : item.token.id = other.token.id :=
      (List.idxOf_inj (h.listed item hmem hwhite)).mp hindex
    have hfound := Table.find_of_mem hmem
    rw [hid, Table.find_of_mem hother] at hfound
    exact (Option.some.inj hfound).symm
  unnumbered := h.unnumbered

/-- One round of the loop numbers one token. -/
theorem Rearranging.step {order : List String} (hnodup : order.Nodup)
    (hether : Token.Ether.id ∉ order) {queried : List TokenListItem} {index : ℕ} {token : Token}
    {rest : List Token} (h : Rearranging order queried index (token :: rest) items) :
    ∃ queried' items', Rearranging order queried' (index + 1) rest items' ∧
      rearrangeFrom queried index (token :: rest) items =
        rearrangeFrom queried' (index + 1) rest items' := by
  have hrest := h.rest_eq
  rw [List.map_cons] at hrest
  have hlt : index < order.length := by
    by_contra hle
    rw [List.drop_of_length_le (Nat.le_of_not_lt hle)] at hrest
    cases hrest
  rw [List.drop_eq_getElem_cons hlt] at hrest
  obtain ⟨hhead, hrest⟩ := List.cons.inj hrest
  have hindex : order.idxOf token.id = index := by rw [hhead, hnodup.idxOf_getElem]
  have hmem : token.id ∈ order := hhead ▸ List.getElem_mem hlt
  have hnot : token.id ∉ rest.map Token.id := by
    have hdrop : (order.drop index).Nodup := hnodup.sublist (List.drop_sublist _ _)
    rw [List.drop_eq_getElem_cons hlt, List.nodup_cons] at hdrop
    rw [hrest, hhead]
    exact hdrop.1
  obtain ⟨item, hqueried, hfind, hwhite⟩ := h.queried_eq token List.mem_cons_self
  have hkey : item.token.id = token.id := (Table.mem_of_find hfind).2
  by_cases hsame : item.sortingId = some (index : ℤ)
  · refine ⟨queried, items, ⟨hrest, h.listed, fun other hother hwhite' hnotin => ?_, h.unnumbered,
      fun other hother => h.queried_eq other (List.mem_cons_of_mem _ hother)⟩, ?_⟩
    · by_cases hid : other.token.id = token.id
      · have hfound := Table.find_of_mem hother
        rw [hid, hfind] at hfound
        rw [← Option.some.inj hfound, hsame, hkey, hindex]
      · exact h.numbered other hother hwhite' (by simp [hid]; simpa using hnotin)
    · rw [rearrangeFrom, hqueried]
      simp only [hsame, if_true]
  · have hprepared : prepareToSave items { item with sortingId := some (index : ℤ) } =
        { item with sortingId := some (index : ℤ) } := by
      have hnotEther : item.token.id ≠ Token.Ether.id := by
        rw [hkey]
        exact fun heq => hether (heq ▸ hmem)
      have hstored : Table.find items item.token.id = some item := by rw [hkey, hfind]
      apply prepareToSave_of_same_status
      · exact hnotEther
      · exact hstored
      · rfl
    have hrows : ∀ other, other ∈ (save items { item with sortingId := some (index : ℤ) }).rows ↔
        other = { item with sortingId := some (index : ℤ) } ∨
          (other ∈ items.rows ∧ other.token.id ≠ token.id) := by
      intro other
      rw [save, hprepared, Table.mem_rows_save]
      simp only [hkey]
    refine ⟨queried.map fun other => if other.token.id = token.id then
        { item with sortingId := some (index : ℤ) } else other,
      save items { item with sortingId := some (index : ℤ) }, ⟨hrest, ?_, ?_, ?_, ?_⟩, ?_⟩
    · intro other hother hwhite'
      rcases (hrows other).mp hother with rfl | ⟨hold, -⟩
      · exact hkey ▸ hmem
      · exact h.listed other hold hwhite'
    · intro other hother hwhite' hnotin
      rcases (hrows other).mp hother with rfl | ⟨hold, hne⟩
      · simp only [hkey, hindex]
      · exact h.numbered other hold hwhite' (by simp [hne]; simpa using hnotin)
    · intro other hother hplain
      rcases (hrows other).mp hother with rfl | ⟨hold, -⟩
      · exact absurd hwhite hplain
      · exact h.unnumbered other hold hplain
    · intro other hother
      have hne : token.id ≠ other.id := by
        intro heq
        exact hnot (heq ▸ List.mem_map_of_mem hother)
      obtain ⟨found, hfound, hstored, hwhite'⟩ := h.queried_eq other (List.mem_cons_of_mem _ hother)
      refine ⟨found, ?_, ?_, hwhite'⟩
      · have hid : found.token.id = other.id := by simpa using List.find?_some hfound
        have hpred : ((fun item : TokenListItem => decide (item.token.id = other.id)) ∘ fun other' =>
            if other'.token.id = token.id then { item with sortingId := some (index : ℤ) }
            else other') = fun item => decide (item.token.id = other.id) := by
          funext candidate
          by_cases hcandidate : candidate.token.id = token.id
          · simp [hcandidate, hkey]
          · simp [hcandidate]
        rw [List.find?_map, hpred, hfound, Option.map_some, if_neg (hid ▸ hne.symm)]
      · rw [find_save, if_neg (by rw [hkey]; exact hne), hstored]
    · rw [rearrangeFrom, hqueried]
      simp only [hsame, if_false]

theorem Rearranging.rearrangeFrom_ordered {order : List String} (hnodup : order.Nodup)
    (hether : Token.Ether.id ∉ order) {queried : List TokenListItem} {index : ℕ}
    {rest : List Token} (h : Rearranging order queried index rest items) :
    Ordered (rearrangeFrom queried index rest items) := by
  induction rest generalizing queried index items with
  | nil => exact h.ordered
  | cons token rest ih =>
      obtain ⟨queried', items', hstep, heq⟩ := h.step hnodup hether
      rw [heq]
      exact ih hstep

theorem displayed_nodup (items : TokenListItems) : (displayed items).Nodup := by
  have hperm := (List.perm_insertionSort (fun first second : TokenListItem =>
    precedes first.sortingId second.sortingId = true)
    (items.rows.filter fun item => item.status = .whitelisted)).map fun item => item.token.id
  exact hperm.nodup_iff.mpr (items.keys_nodup.sublist (List.filter_sublist.map _))

theorem mem_displayed {id : String} : id ∈ displayed items ↔
    ∃ item ∈ items.rows, item.status = .whitelisted ∧ item.token.id = id := by
  simp only [displayed, List.mem_map, mem_whitelisted, and_assoc]

theorem rearrange_ordered (h : Ordered items) {tokens : List Token}
    (hether : ∀ token ∈ tokens, token.id ≠ Token.Ether.id)
    (hperm : (tokens.map Token.id).Perm (displayed items)) : Ordered (rearrange items tokens) := by
  have hlisted : ∀ item ∈ items.rows, item.status = .whitelisted →
      item.token.id ∈ tokens.map Token.id := fun item hmem hwhite =>
    hperm.mem_iff.mpr (mem_displayed.mpr ⟨item, hmem, hwhite, rfl⟩)
  apply Rearranging.rearrangeFrom_ordered (hperm.nodup_iff.mpr (displayed_nodup items))
  · intro hmem
    obtain ⟨token, htoken, heq⟩ := List.mem_map.mp hmem
    exact hether token htoken heq
  · refine ⟨rfl, hlisted, fun item hmem hwhite hnot => absurd (hlisted item hmem hwhite) hnot,
      h.unnumbered, fun token htoken => ?_⟩
    obtain ⟨item, hmem, hwhite, hid⟩ :=
      mem_displayed.mp (hperm.mem_iff.mp (List.mem_map_of_mem htoken))
    cases hfind : (whitelisted items).find? fun item => item.token.id = token.id with
    | none =>
        have hnot := List.find?_eq_none.mp hfind item (mem_whitelisted.mpr ⟨hmem, hwhite⟩)
        exact absurd (decide_eq_true hid) hnot
    | some found =>
        obtain ⟨hfound, hwhite'⟩ := mem_whitelisted.mp (List.mem_of_find?_eq_some hfind)
        have hid' : found.token.id = token.id := by simpa using List.find?_some hfind
        exact ⟨found, rfl, hid' ▸ Table.find_of_mem hfound, hwhite'⟩

end TokenListItemRepository

namespace TokenListMerger

open TokenListItemRepository

variable {items : TokenListItems} {tokenList : List TokenListItem}

theorem deleteStored_ordered (tokenList : List TokenListItem) (h : Ordered items) :
    Ordered (deleteStored tokenList items) :=
  h.mono fun _ hmem => (Table.mem_rows_removeAll.mp hmem).1

/-- The loop over the listed items: they are still stored with the status and the number
that were queried, and nothing else is whitelisted. -/
structure Updating (queried : List TokenListItem) (items : TokenListItems) : Prop where
  ordered : Ordered items
  stored : ∀ item ∈ queried, ∃ row, Table.find items item.token.id = some row ∧
    row.status = item.status ∧ row.sortingId = item.sortingId
  complete : ∀ row ∈ items.rows, row.status = .whitelisted →
    ∃ item ∈ queried, item.token.id = row.token.id
  unique : ∀ item ∈ queried, ∀ other ∈ queried, item.token.id = other.token.id → item = other

theorem Updating.step {queried : List TokenListItem} (h : Updating queried items)
    {latest item : TokenListItem} (hether : latest.token.id ≠ Token.Ether.id)
    (hitem : item ∈ queried) (hid : item.token.id = latest.token.id) :
    Updating queried
      (save items ⟨latest.token, item.status, latest.canPayTransactionFee, item.sortingId⟩) := by
  obtain ⟨row, hrow, hstatus, hnumber⟩ := h.stored item hitem
  have hmem := (Table.mem_of_find hrow).1
  rw [hid] at hrow
  have hsaveable : Saveable items
      ⟨latest.token, item.status, latest.canPayTransactionFee, item.sortingId⟩ := {
    not_ether := hether
    keeps := by
      intro existing hexisting _ _
      rw [hrow] at hexisting
      rw [← Option.some.inj hexisting, hnumber]
    plain := by
      intro hplain
      rw [← hnumber]
      exact h.ordered.unnumbered row hmem (hstatus ▸ hplain) }
  have hprepared : prepareToSave items
      ⟨latest.token, item.status, latest.canPayTransactionFee, item.sortingId⟩ =
      ⟨latest.token, item.status, latest.canPayTransactionFee, item.sortingId⟩ :=
    prepareToSave_of_same_status hether hrow hstatus
  refine ⟨save_ordered h.ordered hsaveable, fun other hother => ?_, fun other hother hwhite => ?_,
    h.unique⟩
  · rw [find_save, hprepared]
    by_cases hsame : latest.token.id = other.token.id
    · rw [if_pos hsame]
      rw [← h.unique item hitem other hother (hid.trans hsame)]
      exact ⟨_, rfl, rfl, rfl⟩
    · rw [if_neg hsame]
      exact h.stored other hother
  · rw [save, hprepared, Table.mem_rows_save] at hother
    rcases hother with rfl | ⟨hold, -⟩
    · exact ⟨item, hitem, hid⟩
    · exact h.complete other hold hwhite

theorem Updating.updateListed {queried : List TokenListItem} (h : Updating queried items)
    (hether : ∀ latest ∈ tokenList, latest.token.id ≠ Token.Ether.id) :
    Updating queried (updateListed queried tokenList items).2 := by
  induction tokenList generalizing items with
  | nil => exact h
  | cons latest rest ih =>
      rw [List.forall_mem_cons] at hether
      rw [TokenListMerger.updateListed]
      cases hfind : queried.find? fun item => item.token.id = latest.token.id with
      | some item =>
          have hid : item.token.id = latest.token.id := by simpa using List.find?_some hfind
          exact ih (h.step hether.1 (List.mem_of_find?_eq_some hfind) hid) hether.2
      | none => exact ih h hether.2

/-- What the loop leaves is the part of the list that was not queried. -/
theorem remaining_updateListed (queried tokenList : List TokenListItem) (items : TokenListItems) :
    (updateListed queried tokenList items).1 = tokenList.filter fun latest =>
      (queried.find? fun item => item.token.id = latest.token.id) = none := by
  induction tokenList generalizing items with
  | nil => rfl
  | cons latest rest ih =>
      rw [updateListed]
      cases hfind : queried.find? fun item => item.token.id = latest.token.id with
      | some item =>
          rw [List.filter_cons_of_neg (by simp [hfind])]
          exact ih _
      | none => rw [List.filter_cons_of_pos (by simp [hfind]), ← ih items]

/-- No token is listed twice as whitelisted. -/
def ListedOnce (tokenList : List TokenListItem) : Prop :=
  tokenList.Pairwise fun first second => first.token.id = second.token.id →
    first.status = .whitelisted → second.status ≠ .whitelisted

/-- Saving a list of items, whose whitelisted ones were not whitelisted before. -/
theorem foldl_save_ordered {remaining : List TokenListItem} (h : Ordered items)
    (honce : ListedOnce remaining)
    (hether : ∀ item ∈ remaining, item.token.id ≠ Token.Ether.id)
    (hplain : ∀ item ∈ remaining, item.status ≠ .whitelisted → item.sortingId = none)
    (hnew : ∀ item ∈ remaining, item.status = .whitelisted → ∀ existing,
      Table.find items item.token.id = some existing → existing.status ≠ .whitelisted) :
    Ordered (remaining.foldl save items) := by
  induction remaining generalizing items with
  | nil => exact h
  | cons item rest ih =>
      obtain ⟨hfirst, honce⟩ := List.pairwise_cons.mp honce
      rw [List.forall_mem_cons] at hether hplain hnew
      apply ih _ honce hether.2 hplain.2
      · intro other hother hwhite existing hfound
        rw [find_save] at hfound
        by_cases hsame : item.token.id = other.token.id
        · rw [if_pos hsame] at hfound
          obtain ⟨number, hprepared⟩ := prepareToSave_eq items item
          rw [← Option.some.inj hfound, hprepared]
          exact fun hitem => hfirst other hother hsame hitem hwhite
        · rw [if_neg hsame] at hfound
          exact hnew.2 other hother hwhite existing hfound
      · exact save_ordered h {
          not_ether := hether.1
          keeps := fun existing hfound hexisting hwhite =>
            absurd hexisting (hnew.1 hwhite existing hfound)
          plain := hplain.1 }

theorem mergeStoredTokenItems_ordered (h : Ordered items)
    (honce : ListedOnce tokenList)
    (hether : ∀ item ∈ tokenList, item.token.id ≠ Token.Ether.id)
    (hplain : ∀ item ∈ tokenList, item.status ≠ .whitelisted → item.sortingId = none) :
    Ordered (mergeStoredTokenItems items tokenList) := by
  have hdeleted := deleteStored_ordered tokenList h
  unfold mergeStoredTokenItems
  generalize deleteStored tokenList items = items at hdeleted
  simp only
  generalize hqueried : (items.rows.filter fun item =>
    item.status = .whitelisted ∨ item.status = .blacklisted) = queried
  have hmem : ∀ item, item ∈ queried ↔ item ∈ items.rows ∧
      (item.status = .whitelisted ∨ item.status = .blacklisted) := by
    intro item
    rw [← hqueried, List.mem_filter, decide_eq_true_eq]
  have hupdating : Updating queried items := {
    ordered := hdeleted
    stored := fun item hitem =>
      ⟨item, Table.find_of_mem ((hmem item).mp hitem).1, rfl, rfl⟩
    complete := fun row hrow hwhite => ⟨row, (hmem row).mpr ⟨hrow, .inl hwhite⟩, rfl⟩
    unique := fun item hitem other hother hid => by
      have hfound := Table.find_of_mem ((hmem item).mp hitem).1
      rw [hid, Table.find_of_mem ((hmem other).mp hother).1] at hfound
      exact (Option.some.inj hfound).symm }
  have hupdated := hupdating.updateListed hether
  rw [remaining_updateListed]
  apply foldl_save_ordered hupdated.ordered
  · exact List.Pairwise.sublist List.filter_sublist honce
  · exact fun item hitem => hether item (List.mem_filter.mp hitem).1
  · exact fun item hitem => hplain item (List.mem_filter.mp hitem).1
  · intro item hitem _ existing hfound hwhite
    obtain ⟨hrow, hid⟩ := Table.mem_of_find hfound
    obtain ⟨listed, hlisted, hsame⟩ := hupdated.complete existing hrow hwhite
    have hnone := of_decide_eq_true (List.mem_filter.mp hitem).2
    have hnot := List.find?_eq_none.mp hnone listed hlisted
    exact hnot (decide_eq_true (hsame.trans hid))

end TokenListMerger

end SafeWallet
