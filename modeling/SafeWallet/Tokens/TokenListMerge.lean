/-
# Merging the latest token list

The latest list of the service replaces what is stored, except for the choices of the
user: a token that was whitelisted or blacklisted keeps its status and its sorting
number, and a whitelisted one stays even if it is no longer listed. The merger goes over
the two collections in three passes. Each pass is described by what is found under an
identifier after it; the numbers are given out by the last pass, one write at a time.
-/

import SafeWallet.Tokens.TokenListRuns

namespace SafeWallet

namespace TokenListMerger

open TokenListItemRepository

/-- The identifiers of a list. -/
def ids (tokenList : List TokenListItem) : List String :=
  tokenList.map fun latest => latest.token.id

/-- Neither whitelisted nor blacklisted before. -/
def Undecided (items : TokenListItems) (id : String) : Prop :=
  ∀ stored, Table.find items id = some stored → stored.status = .regular

instance (items : TokenListItems) (id : String) : Decidable (Undecided items id) :=
  decidable_of_iff ((Table.find items id).all fun stored => stored.status = .regular)
    (by cases h : Table.find items id <;> simp [Undecided, h])

/-- A token that the list whitelists. -/
def NewlyWhitelisted (items : TokenListItems) (latest : TokenListItem) : Prop :=
  latest.status = .whitelisted ∧ Undecided items latest.token.id

/-- A number is larger than those of all whitelisted tokens. -/
def Above (items : TokenListItems) (number : ℤ) : Prop :=
  ∀ stored ∈ items.rows, stored.status = .whitelisted → ∀ other, stored.sortingId = some other →
    other < number

/-- The number of a stored token. -/
def sortingId (items : TokenListItems) (id : String) : Option ℤ :=
  (Table.find items id).bind TokenListItem.sortingId

/-- What a merge leaves in the store. -/
structure Merges (items : TokenListItems) (tokenList : List TokenListItem)
    (merged : TokenListItems) : Prop where
  listed : ∀ latest ∈ tokenList, ∃ row, Table.find merged latest.token.id = some row ∧
    row.token = latest.token ∧ row.canPayTransactionFee = latest.canPayTransactionFee
  chosen : ∀ latest ∈ tokenList, ∀ stored, Table.find items latest.token.id = some stored →
    (stored.status = .whitelisted ∨ stored.status = .blacklisted) →
      ∃ row, Table.find merged latest.token.id = some row ∧ row.status = stored.status ∧
        row.sortingId = stored.sortingId
  undecided : ∀ latest ∈ tokenList, Undecided items latest.token.id →
    ∃ row, Table.find merged latest.token.id = some row ∧ row.status = latest.status
  unlisted : ∀ id ∉ ids tokenList, ∀ row, Table.find merged id = some row ↔
    Table.find items id = some row ∧ row.status = .whitelisted
  above : ∀ latest ∈ tokenList, NewlyWhitelisted items latest →
    ∃ number, sortingId merged latest.token.id = some number ∧ Above items number
  increasing : tokenList.Pairwise fun first second => NewlyWhitelisted items first →
    NewlyWhitelisted items second → ∃ number larger,
      sortingId merged first.token.id = some number ∧
      sortingId merged second.token.id = some larger ∧ number < larger

/-! ## The passes -/

variable {items : TokenListItems} {tokenList : List TokenListItem} {queried : List TokenListItem}

/-- The first pass keeps what is whitelisted or listed. -/
theorem find_deleteStored (id : String) {row : TokenListItem} :
    Table.find (deleteStored tokenList items) id = some row ↔
      Table.find items id = some row ∧ (row.status = .whitelisted ∨ id ∈ ids tokenList) := by
  rw [Table.find_eq_some_iff, Table.find_eq_some_iff, deleteStored, Table.mem_rows_removeAll]
  constructor
  · rintro ⟨⟨hmem, hkept⟩, rfl⟩
    refine ⟨⟨hmem, rfl⟩, ?_⟩
    by_contra hnot
    obtain ⟨hstatus, hid⟩ := not_or.mp hnot
    exact hkept (List.mem_map.mpr
      ⟨row, List.mem_filter.mpr ⟨hmem, decide_eq_true ⟨hstatus, hid⟩⟩, rfl⟩)
  · rintro ⟨⟨hmem, rfl⟩, hkept⟩
    refine ⟨⟨hmem, fun hremoved => ?_⟩, rfl⟩
    obtain ⟨other, hother, hid⟩ := List.mem_map.mp hremoved
    obtain ⟨hother, hcondition⟩ := List.mem_filter.mp hother
    have hsame : other = row :=
      Option.some.inj ((Table.find_of_mem hother).symm.trans (hid ▸ Table.find_of_mem hmem))
    simp only [hsame, decide_eq_true_eq] at hcondition
    exact hkept.elim hcondition.1 hcondition.2

/-- The row of a token that the user decided about. -/
def updated (latest item : TokenListItem) : TokenListItem :=
  ⟨latest.token, item.status, latest.canPayTransactionFee, item.sortingId⟩

/-- The queried items are still stored under the status they were queried with. -/
def Stored (queried : List TokenListItem) (items : TokenListItems) : Prop :=
  ∀ item, (queried.find? fun other => other.token.id = item.token.id) = some item →
    ∃ row, Table.find items item.token.id = some row ∧ row.status = item.status

/-- One round of the second pass. -/
theorem Stored.save (h : Stored queried items) {latest item : TokenListItem}
    (hether : latest.token.id ≠ Token.Ether.id)
    (hitem : (queried.find? fun other => other.token.id = latest.token.id) = some item) :
    Stored queried (save items (updated latest item)) ∧
      ∀ id, Table.find (TokenListItemRepository.save items (updated latest item)) id =
        if latest.token.id = id then some (updated latest item) else Table.find items id := by
  have hid : item.token.id = latest.token.id := by simpa using List.find?_some hitem
  obtain ⟨row, hrow, hstatus⟩ := h item (hid ▸ hitem)
  have hprepared : prepareToSave items (updated latest item) = updated latest item :=
    prepareToSave_of_same_status hether (by rw [← hrow, hid]; rfl) hstatus
  have hfind : ∀ id, Table.find (TokenListItemRepository.save items (updated latest item)) id =
      if latest.token.id = id then some (updated latest item) else Table.find items id := by
    intro id
    rw [find_save, hprepared]
    rfl
  refine ⟨fun other hother => ?_, hfind⟩
  rw [hfind]
  by_cases hsame : latest.token.id = other.token.id
  · rw [← hsame, hitem] at hother
    rw [if_pos hsame, ← Option.some.inj hother]
    exact ⟨_, rfl, rfl⟩
  · rw [if_neg hsame]
    exact h other hother

/-- The second pass updates the tokens the user decided about, and only them. -/
theorem find_updateListed (h : Stored queried items) (hnodup : (ids tokenList).Nodup)
    (hether : ∀ latest ∈ tokenList, latest.token.id ≠ Token.Ether.id) :
    (∀ latest ∈ tokenList, ∀ item,
      (queried.find? fun other => other.token.id = latest.token.id) = some item →
        Table.find (updateListed queried tokenList items).2 latest.token.id =
          some (updated latest item)) ∧
    (∀ id, (id ∈ ids tokenList → (queried.find? fun other => other.token.id = id) = none) →
      Table.find (updateListed queried tokenList items).2 id = Table.find items id) := by
  induction tokenList generalizing items with
  | nil => exact ⟨fun _ hmem => (by cases hmem), fun _ _ => rfl⟩
  | cons first rest ih =>
      obtain ⟨hfirst, hnodup⟩ := List.nodup_cons.mp hnodup
      rw [List.forall_mem_cons] at hether
      rw [updateListed]
      cases hitem : queried.find? fun other => other.token.id = first.token.id with
      | some item =>
          obtain ⟨hstored, hfind⟩ := h.save hether.1 hitem
          obtain ⟨hupdated, hkept⟩ := ih hstored hnodup hether.2
          simp only
          constructor
          · intro latest hlatest other hother
            rcases List.mem_cons.mp hlatest with rfl | hlatest
            · cases hitem.symm.trans hother
              refine (hkept latest.token.id fun hmem => absurd hmem hfirst).trans ?_
              rw [hfind, if_pos rfl]
            · exact hupdated latest hlatest other hother
          · intro id hid
            have hne : first.token.id ≠ id := by
              rintro rfl
              rw [hid List.mem_cons_self] at hitem
              cases hitem
            refine (hkept id fun hmem => hid (List.mem_cons_of_mem _ hmem)).trans ?_
            rw [hfind, if_neg hne]
      | none =>
          obtain ⟨hupdated, hkept⟩ := ih h hnodup hether.2
          simp only
          constructor
          · intro latest hlatest other hother
            rcases List.mem_cons.mp hlatest with rfl | hlatest
            · cases hitem.symm.trans hother
            · exact hupdated latest hlatest other hother
          · intro id hid
            exact hkept id fun hmem => hid (List.mem_cons_of_mem _ hmem)

/-- What the third pass does with the rest of the list. -/
structure Saves (items : TokenListItems) (remaining : List TokenListItem)
    (saved : TokenListItems) : Prop where
  others : ∀ id ∉ ids remaining, Table.find saved id = Table.find items id
  listed : ∀ latest ∈ remaining, ∃ number,
    Table.find saved latest.token.id = some { latest with sortingId := number } ∧
      (latest.status = .whitelisted → ∃ n, number = some n ∧ Above items n)
  increasing : remaining.Pairwise fun first second => first.status = .whitelisted →
    second.status = .whitelisted → ∃ number larger,
      sortingId saved first.token.id = some number ∧
      sortingId saved second.token.id = some larger ∧ number < larger

theorem sortingId_eq {id : String} {row : TokenListItem} (h : Table.find items id = some row) :
    sortingId items id = row.sortingId := by
  rw [sortingId, h, Option.bind_some]

/-- A token that was not whitelisted gets a number above all others. -/
theorem prepareToSave_above {latest : TokenListItem} (hether : latest.token.id ≠ Token.Ether.id)
    (hnew : ∀ existing, Table.find items latest.token.id = some existing →
      existing.status ≠ .whitelisted) :
    ∃ number, prepareToSave items latest = { latest with sortingId := number } ∧
      (latest.status = .whitelisted → ∃ n, number = some n ∧ Above items n) := by
  rcases prepareToSave_spec items hether with ⟨existing, hfind, hexisting, -⟩ |
    ⟨hstatus, hprepared | ⟨-, hprepared⟩⟩ | ⟨-, -, hprepared⟩
  · exact absurd hexisting (hnew existing hfind)
  · exact ⟨none, hprepared, fun hwhite => absurd hwhite hstatus⟩
  · exact ⟨latest.sortingId, hprepared, fun hwhite => absurd hwhite hstatus⟩
  · refine ⟨_, hprepared, fun _ => ⟨_, rfl, fun stored hmem hwhite other hother => ?_⟩⟩
    have hle := le_lastWhitelistedId (mem_whitelisted.mpr ⟨hmem, hwhite⟩) hother
    omega

/-- Numbers above the ones after a write are above the ones before it and the new one. -/
theorem Above.of_save {latest : TokenListItem} {n : ℤ} (h : Above (save items latest) n)
    (hnew : ∀ existing, Table.find items latest.token.id = some existing →
      existing.status ≠ .whitelisted) : Above items n := by
  obtain ⟨number, hprepared⟩ := prepareToSave_eq items latest
  intro stored hmem hwhite other hother
  refine h stored ?_ hwhite other hother
  rw [TokenListItemRepository.save, Table.mem_rows_save]
  refine .inr ⟨hmem, fun hid => hnew stored ?_ hwhite⟩
  rw [hprepared] at hid
  exact hid ▸ Table.find_of_mem hmem

theorem foldl_save_saves {remaining : List TokenListItem} (hnodup : (ids remaining).Nodup)
    (hether : ∀ latest ∈ remaining, latest.token.id ≠ Token.Ether.id)
    (hnew : ∀ latest ∈ remaining, ∀ existing, Table.find items latest.token.id = some existing →
      existing.status ≠ .whitelisted) :
    Saves items remaining (remaining.foldl save items) := by
  induction remaining generalizing items with
  | nil => exact ⟨fun _ _ => rfl, fun _ hmem => (by cases hmem), List.Pairwise.nil⟩
  | cons first rest ih =>
      obtain ⟨hfirst, hnodup⟩ := List.nodup_cons.mp hnodup
      rw [List.forall_mem_cons] at hether hnew
      have hdiffer : ∀ latest ∈ rest, first.token.id ≠ latest.token.id := fun latest hlatest heq =>
        hfirst (List.mem_map.mpr ⟨latest, hlatest, heq.symm⟩)
      have hsaves := @ih (save items first) hnodup hether.2 (by
        intro latest hlatest existing hexisting
        rw [find_save, if_neg (hdiffer latest hlatest)] at hexisting
        exact hnew.2 latest hlatest existing hexisting)
      obtain ⟨number, hprepared, habove⟩ := prepareToSave_above hether.1 hnew.1
      -- the first token is not touched by the writes after it
      have hrow : Table.find (rest.foldl save (save items first)) first.token.id =
          some { first with sortingId := number } := by
        rw [hsaves.others _ hfirst, find_save, if_pos rfl, hprepared]
      have hmem : ({ first with sortingId := number } : TokenListItem) ∈
          (save items first).rows := by
        rw [← hprepared, TokenListItemRepository.save, Table.mem_rows_save]
        exact .inl rfl
      refine ⟨fun id hid => ?_, fun latest hlatest => ?_, List.pairwise_cons.mpr ⟨?_, ?_⟩⟩
      · rw [ids, List.map_cons, List.mem_cons, not_or] at hid
        rw [List.foldl_cons, hsaves.others id hid.2, find_save, if_neg (Ne.symm hid.1)]
      · rcases List.mem_cons.mp hlatest with rfl | hlatest
        · exact ⟨number, hrow, habove⟩
        · obtain ⟨later, hfind, hlater⟩ := hsaves.listed latest hlatest
          refine ⟨later, hfind, fun hwhite => ?_⟩
          obtain ⟨n, hn, hn'⟩ := hlater hwhite
          exact ⟨n, hn, hn'.of_save hnew.1⟩
      · intro second hsecond hwhite hwhite'
        obtain ⟨n, rfl, -⟩ := habove hwhite
        obtain ⟨later, hfind, hlater⟩ := hsaves.listed second hsecond
        obtain ⟨m, rfl, hm⟩ := hlater hwhite'
        exact ⟨n, m, sortingId_eq hrow, sortingId_eq hfind, hm _ hmem hwhite n rfl⟩
      · exact hsaves.increasing

/-! ## The merge -/

/-- The items that the second pass goes over. -/
def decided (items : TokenListItems) : List TokenListItem :=
  items.rows.filter fun item => item.status = .whitelisted ∨ item.status = .blacklisted

theorem find_decided {id : String} {item : TokenListItem} :
    ((decided items).find? fun other => other.token.id = id) = some item ↔
      Table.find items id = some item ∧
        (item.status = .whitelisted ∨ item.status = .blacklisted) := by
  constructor
  · intro hfind
    have hid : item.token.id = id := by simpa using List.find?_some hfind
    obtain ⟨hmem, hstatus⟩ := List.mem_filter.mp (List.mem_of_find?_eq_some hfind)
    exact ⟨hid ▸ Table.find_of_mem hmem, of_decide_eq_true hstatus⟩
  · rintro ⟨hfind, hstatus⟩
    obtain ⟨hmem, hid⟩ := Table.mem_of_find hfind
    have hdecided : item ∈ decided items := List.mem_filter.mpr ⟨hmem, decide_eq_true hstatus⟩
    cases hother : (decided items).find? fun other => other.token.id = id with
    | none => exact absurd (decide_eq_true hid) (List.find?_eq_none.mp hother item hdecided)
    | some other =>
        have hid' : other.token.id = id := by simpa using List.find?_some hother
        have hmem' := (List.mem_filter.mp (List.mem_of_find?_eq_some hother)).1
        rw [← hfind, ← hid', Table.find_of_mem hmem']

theorem stored_decided (items : TokenListItems) : Stored (decided items) items := by
  intro item hitem
  exact ⟨item, (find_decided.mp hitem).1, rfl⟩

/-- What the first two passes leave: the rest of the list is yet to be saved. -/
structure Updates (items : TokenListItems) (tokenList : List TokenListItem)
    (changed : TokenListItems) : Prop where
  chosen : ∀ latest ∈ tokenList, ∀ stored, Table.find items latest.token.id = some stored →
    (stored.status = .whitelisted ∨ stored.status = .blacklisted) →
      Table.find changed latest.token.id = some (updated latest stored)
  undecided : ∀ latest ∈ tokenList, Undecided items latest.token.id →
    Table.find changed latest.token.id = Table.find items latest.token.id
  unlisted : ∀ id ∉ ids tokenList, ∀ row, Table.find changed id = some row ↔
    Table.find items id = some row ∧ row.status = .whitelisted

/-- The items that are kept, and what the second pass makes of them. -/
theorem updateListed_updates (hnodup : (ids tokenList).Nodup)
    (hether : ∀ latest ∈ tokenList, latest.token.id ≠ Token.Ether.id) :
    Updates items tokenList
        (updateListed (decided (deleteStored tokenList items)) tokenList
          (deleteStored tokenList items)).2 ∧
      (updateListed (decided (deleteStored tokenList items)) tokenList
        (deleteStored tokenList items)).1 =
          tokenList.filter fun latest => Undecided items latest.token.id := by
  generalize hkept : deleteStored tokenList items = kept
  obtain ⟨hupdated, hunchanged⟩ := find_updateListed (stored_decided kept) hnodup hether
  have hfind : ∀ latest ∈ tokenList, Table.find kept latest.token.id =
      Table.find items latest.token.id := by
    intro latest hlatest
    apply Option.ext
    intro row
    rw [← hkept, find_deleteStored]
    exact and_iff_left (.inr (List.mem_map_of_mem hlatest))
  have hundecided : ∀ latest ∈ tokenList,
      ((decided kept).find? fun item => item.token.id = latest.token.id) = none ↔
        Undecided items latest.token.id := by
    intro latest hlatest
    rw [Option.eq_none_iff_forall_ne_some]
    simp only [ne_eq, find_decided, hfind latest hlatest, not_and, Undecided]
    refine forall_congr' fun stored => imp_congr_right fun _ => ?_
    cases stored.status <;> simp
  refine ⟨⟨?_, ?_, ?_⟩, ?_⟩
  · intro latest hlatest stored hstored hstatus
    rw [← hfind latest hlatest] at hstored
    exact hupdated latest hlatest stored (find_decided.mpr ⟨hstored, hstatus⟩)
  · intro latest hlatest hregular
    rw [hunchanged _ fun _ => (hundecided latest hlatest).mpr hregular, hfind latest hlatest]
  · intro id hid row
    rw [hunchanged id fun hmem => absurd hmem hid, ← hkept, find_deleteStored, or_iff_left hid]
  · rw [remaining_updateListed]
    exact List.filter_congr fun latest hlatest => by simp only [hundecided latest hlatest]

/-- The rest of the list is not whitelisted. -/
theorem Updates.not_whitelisted {changed : TokenListItems} (h : Updates items tokenList changed)
    {latest existing : TokenListItem}
    (hlatest : latest ∈ tokenList.filter fun latest => Undecided items latest.token.id)
    (hexisting : Table.find changed latest.token.id = some existing) :
    existing.status ≠ .whitelisted := by
  obtain ⟨hlatest, hregular⟩ := List.mem_filter.mp hlatest
  have hregular := of_decide_eq_true hregular
  rw [h.undecided latest hlatest hregular] at hexisting
  rw [hregular existing hexisting]
  decide

/-- The numbers of the store are in use after the first two passes. -/
theorem Updates.above {changed : TokenListItems} (h : Updates items tokenList changed) {n : ℤ}
    (habove : Above changed n) : Above items n := by
  intro stored hmem hwhite other hother
  have hstored := Table.find_of_mem hmem
  by_cases hlisted : stored.token.id ∈ ids tokenList
  · obtain ⟨latest, hlatest, hid⟩ := List.mem_map.mp hlisted
    rw [← hid] at hstored
    have hrow := (Table.mem_of_find (h.chosen latest hlatest stored hstored (.inl hwhite))).1
    exact habove _ hrow hwhite other hother
  · have hrow := (Table.mem_of_find ((h.unlisted _ hlisted stored).mpr ⟨hstored, hwhite⟩)).1
    exact habove stored hrow hwhite other hother

/-- What is in the store after the three passes. -/
theorem merges_mergeStoredTokenItems (items : TokenListItems) (tokenList : List TokenListItem)
    (hnodup : (ids tokenList).Nodup)
    (hether : ∀ latest ∈ tokenList, latest.token.id ≠ Token.Ether.id) :
    Merges items tokenList (mergeStoredTokenItems items tokenList) := by
  obtain ⟨hupdates, hrest⟩ := @updateListed_updates items tokenList hnodup hether
  have hmerge : mergeStoredTokenItems items tokenList =
      (updateListed (decided (deleteStored tokenList items)) tokenList
        (deleteStored tokenList items)).1.foldl save
          (updateListed (decided (deleteStored tokenList items)) tokenList
            (deleteStored tokenList items)).2 := rfl
  rw [hmerge, hrest]
  generalize (updateListed (decided (deleteStored tokenList items)) tokenList
    (deleteStored tokenList items)).2 = changed at hupdates
  have hsaves : Saves changed (tokenList.filter fun latest => Undecided items latest.token.id)
      ((tokenList.filter fun latest => Undecided items latest.token.id).foldl save changed) := by
    apply foldl_save_saves (hnodup.sublist (List.filter_sublist.map _))
    · exact fun latest hlatest => hether latest (List.mem_filter.mp hlatest).1
    · exact fun latest hlatest existing => hupdates.not_whitelisted hlatest
  generalize (tokenList.filter fun latest => Undecided items latest.token.id).foldl save changed =
    merged at hsaves
  have hremaining : ∀ latest ∈ tokenList, Undecided items latest.token.id →
      latest ∈ tokenList.filter fun latest => Undecided items latest.token.id :=
    fun latest hlatest hregular => List.mem_filter.mpr ⟨hlatest, decide_eq_true hregular⟩
  -- the third pass leaves the tokens alone that the user decided about
  have hchosen : ∀ latest ∈ tokenList, ∀ stored, Table.find items latest.token.id = some stored →
      (stored.status = .whitelisted ∨ stored.status = .blacklisted) →
        Table.find merged latest.token.id = some (updated latest stored) := by
    intro latest hlatest stored hstored hstatus
    rw [hsaves.others, hupdates.chosen latest hlatest stored hstored hstatus]
    intro hmem
    obtain ⟨other, hother, hid⟩ := List.mem_map.mp hmem
    have hregular := of_decide_eq_true (List.mem_filter.mp hother).2
    rw [hregular stored (hid ▸ hstored)] at hstatus
    simp at hstatus
  refine ⟨fun latest hlatest => ?_, fun latest hlatest stored hstored hstatus => ?_,
    fun latest hlatest hregular => ?_, fun id hid row => ?_, fun latest hlatest hnewly => ?_, ?_⟩
  · by_cases hregular : Undecided items latest.token.id
    · obtain ⟨number, hrow, -⟩ := hsaves.listed latest (hremaining latest hlatest hregular)
      exact ⟨_, hrow, rfl, rfl⟩
    · obtain ⟨stored, hstored, hstatus⟩ : ∃ stored, Table.find items latest.token.id = some stored ∧
          stored.status ≠ .regular := by
        simpa [Undecided] using hregular
      refine ⟨_, hchosen latest hlatest stored hstored ?_, rfl, rfl⟩
      cases hcase : stored.status <;> simp [hcase] at hstatus ⊢
  · exact ⟨_, hchosen latest hlatest stored hstored hstatus, rfl, rfl⟩
  · obtain ⟨number, hrow, -⟩ := hsaves.listed latest (hremaining latest hlatest hregular)
    exact ⟨_, hrow, rfl⟩
  · rw [hsaves.others id fun hmem => hid ((List.filter_sublist.map _).subset hmem)]
    exact hupdates.unlisted id hid row
  · obtain ⟨number, hrow, hnumber⟩ := hsaves.listed latest (hremaining latest hlatest hnewly.2)
    obtain ⟨n, rfl, habove⟩ := hnumber hnewly.1
    exact ⟨n, sortingId_eq hrow, hupdates.above habove⟩
  · refine (List.pairwise_filter.mp hsaves.increasing).imp fun hpair hfirst hsecond => ?_
    exact hpair (decide_eq_true hfirst.2) (decide_eq_true hsecond.2) hfirst.1 hsecond.1

end TokenListMerger

end SafeWallet
