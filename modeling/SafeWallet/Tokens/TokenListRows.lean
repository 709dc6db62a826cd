/-
# The token list in the database

A token list item is a row with the text of its token, which is read each time the item is
queried. Items whose tokens are read back as they were written are merged as objects: the
rows stand for the items all through the three passes, as long as the sorting numbers stay
within the machine's integers.
-/

import SafeWallet.Repositories.TokenPersistence
import SafeWallet.Tokens.TokenListMerge

namespace SafeWallet

/-- `TokenListItemStatus.rawValue`. -/
def TokenListItemStatus.rawValue : TokenListItemStatus → String
  | .regular => "regular"
  | .whitelisted => "whitelisted"
  | .blacklisted => "blacklisted"

/-- `TokenListItemStatus(rawValue:)`. -/
def TokenListItemStatus.ofRawValue (rawValue : String) : Option TokenListItemStatus :=
  [.regular, .whitelisted, .blacklisted].find? fun status => status.rawValue = rawValue

@[simp]
theorem TokenListItemStatus.ofRawValue_rawValue (status : TokenListItemStatus) :
    ofRawValue status.rawValue = some status := by
  cases status <;> rfl

theorem TokenListItemStatus.rawValue_eq_iff {first second : TokenListItemStatus} :
    first.rawValue = second.rawValue ↔ first = second := by
  cases first <;> cases second <;> decide

/-- The columns of `tbl_token_list_items`, without the time of the last update. -/
structure TokenListItemRow where
  id : String
  token : List Char
  status : String
  sortingId : Option ℤ
  canPayTransactionFee : Bool
  deriving DecidableEq, Repr

namespace DBTokenListItemRepository

/-! ## The repository -/

/-- `insertionBindings(_:)`. -/
def row (item : TokenListItem) : TokenListItemRow where
  id := item.token.id
  token := item.token.serialized
  status := item.status.rawValue
  sortingId := item.sortingId
  canPayTransactionFee := item.canPayTransactionFee

section Repository

variable (kit : TextKit) (rows : Table TokenListItemRow.id)

/-- `objectFromResultSet(_:)`. -/
def objectFromResultSet (row : TokenListItemRow) : Trapping (Option TokenListItem) := do
  let token ← Token.ofText kit (Column.nextString row.token)
  return do
    let token ← token
    let status ← TokenListItemStatus.ofRawValue row.status
    return ⟨token, status, row.canPayTransactionFee, row.sortingId⟩

/-- The items of some rows, without the rows that yield none. -/
def query (chosen : List TokenListItemRow) : Trapping (List TokenListItem) := do
  return (← chosen.mapM (objectFromResultSet kit)).reduceOption

/-- `all()`. -/
def all : Trapping (List TokenListItem) := query kit rows.rows

/-- `find(id:)`. -/
def find (id : String) : Trapping (Option TokenListItem) :=
  if id = Token.Ether.id then return some ⟨Token.Ether, .whitelisted, true, none⟩
  else do return (← query kit (rows.find id).toList).head?

/-- `whitelisted()`. -/
def whitelisted : Trapping (List TokenListItem) :=
  query kit ((rows.rows.filter fun row =>
    row.status = TokenListItemStatus.rawValue .whitelisted).insertionSort fun first second =>
      TokenListItemRepository.precedes first.sortingId second.sortingId)

/-- `lastWhitelistedId + 1`. -/
def nextSortingId (lastWhitelistedId : ℤ) : Trapping ℤ :=
  if lastWhitelistedId + 1 < 2 ^ 63 then .ok (lastWhitelistedId + 1) else .error .integerOverflow

/-- `prepareToSave(_:)`. -/
def prepareToSave (item : TokenListItem) : Trapping TokenListItem := do
  let existing ← find kit rows item.token.id
  if existing.any fun existing => existing.status = .whitelisted then
    return if item.status ≠ .whitelisted then { item with sortingId := none } else item
  else if item.status = .whitelisted then
    let lastWhitelistedId :=
      ((← whitelisted kit rows).getLast?.bind TokenListItem.sortingId).getD (-1)
    return { item with sortingId := some (← nextSortingId lastWhitelistedId) }
  else return item

/-- `save(_:)`. -/
def save (item : TokenListItem) : Trapping (Table TokenListItemRow.id) := do
  return rows.save (row (← prepareToSave kit rows item))

end Repository

/-! ## The merger on the repository -/

variable (kit : TextKit)

/-- `deleteStoredTokenItemsThatAreNotInList(_:)`. -/
def deleteStored (tokenList : List TokenListItem) (rows : Table TokenListItemRow.id) :
    Trapping (Table TokenListItemRow.id) := do
  let stored ← all kit rows
  return rows.removeAll ((stored.filter fun item => item.status ≠ .whitelisted ∧
    item.token.id ∉ tokenList.map fun latest => latest.token.id).map fun item => item.token.id)

/-- The loop of `updateWhitelistedAndBlacklistedTokenItems(with:)`. -/
def updateListed (queried : List TokenListItem) : List TokenListItem →
    Table TokenListItemRow.id → Trapping (List TokenListItem × Table TokenListItemRow.id)
  | [], rows => return ([], rows)
  | latest :: rest, rows =>
    match queried.find? fun item => item.token.id = latest.token.id with
    | some item => do
      updateListed queried rest (← save kit rows
        ⟨latest.token, item.status, latest.canPayTransactionFee, item.sortingId⟩)
    | none => do
      let (remaining, rows) ← updateListed queried rest rows
      return (latest :: remaining, rows)

/-- `mergeStoredTokenItems(with:)`. -/
def mergeStoredTokenItems (rows : Table TokenListItemRow.id) (tokenList : List TokenListItem) :
    Trapping (Table TokenListItemRow.id) := do
  let rows ← deleteStored kit tokenList rows
  let queried := (← all kit rows).filter fun item =>
    item.status = .whitelisted ∨ item.status = .blacklisted
  let (remaining, rows) ← updateListed kit queried tokenList rows
  remaining.foldlM (save kit) rows

/-! ## Rows that stand for items -/

/-- The token is read back as it was written. -/
def Readable (token : Token) : Prop :=
  Token.ofText kit (Column.nextString token.serialized) = .ok (some token)

instance (token : Token) : Decidable (Readable kit token) :=
  inferInstanceAs (Decidable (_ = _))

/-- The rows are those of the items, and each item is read back. -/
structure Represents (rows : Table TokenListItemRow.id) (items : TokenListItems) : Prop where
  rows : rows.rows = items.rows.map row
  readable : ∀ item ∈ items.rows, Readable kit item.token

variable {kit} {rows : Table TokenListItemRow.id} {items : TokenListItems} {item : TokenListItem}
  {tokenList queried : List TokenListItem}

theorem objectFromResultSet_row (h : Readable kit item.token) :
    objectFromResultSet kit (row item) = .ok (some item) := by
  have hstatus : TokenListItemStatus.ofRawValue (row item).status = some item.status :=
    TokenListItemStatus.ofRawValue_rawValue _
  have htoken : Token.ofText kit (Column.nextString (row item).token) = .ok (some item.token) := h
  rw [objectFromResultSet, htoken]
  simp only [Trapping.ok_bind, Trapping.pure_eq_ok, hstatus]
  rfl

theorem query_map_row {chosen : List TokenListItem} (h : ∀ item ∈ chosen, Readable kit item.token) :
    query kit (chosen.map row) = .ok chosen := by
  have hreads : (chosen.map row).mapM (objectFromResultSet kit) = .ok (chosen.map some) := by
    induction chosen with
    | nil => rfl
    | cons first rest ih =>
        rw [List.forall_mem_cons] at h
        simp only [List.map_cons, List.mapM_cons, objectFromResultSet_row h.1, ih h.2,
          Trapping.ok_bind, Trapping.pure_eq_ok]
  simp only [query, hreads, Trapping.ok_bind, Trapping.pure_eq_ok, List.reduceOption,
    List.filterMap_map, Function.id_comp, Except.ok.injEq]
  exact List.filterMap_some

namespace Represents

theorem all_eq (h : Represents kit rows items) : all kit rows = .ok items.rows := by
  rw [all, h.rows, query_map_row h.readable]

theorem find_row (h : Represents kit rows items) (id : String) :
    rows.find id = (Table.find items id).map row := by
  rw [Table.find, h.rows, List.find?_map]
  rfl

theorem find_eq (h : Represents kit rows items) (id : String) :
    find kit rows id = .ok (TokenListItemRepository.find items id) := by
  unfold find TokenListItemRepository.find
  split
  · rfl
  · rw [h.find_row]
    cases hfind : Table.find items id with
    | none => rfl
    | some item =>
        have hreadable := h.readable item (Table.mem_of_find hfind).1
        have hquery := @query_map_row kit [item] (by simpa using hreadable)
        rw [List.map_singleton] at hquery
        simp only [Option.map_some, Option.toList_some, hquery, Trapping.ok_bind]
        rfl

theorem whitelisted_eq (h : Represents kit rows items) :
    whitelisted kit rows = .ok (TokenListItemRepository.whitelisted items) := by
  have hsorted : ((rows.rows.filter fun row =>
      row.status = TokenListItemStatus.rawValue .whitelisted).insertionSort fun first second =>
        TokenListItemRepository.precedes first.sortingId second.sortingId) =
      (TokenListItemRepository.whitelisted items).map row := by
    have hfilter : (items.rows.map row).filter (fun row =>
        row.status = TokenListItemStatus.rawValue .whitelisted) =
        (items.rows.filter fun item => item.status = .whitelisted).map row := by
      rw [List.filter_map]
      refine congrArg _ (List.filter_congr fun item _ => decide_eq_decide.mpr ?_)
      exact TokenListItemStatus.rawValue_eq_iff
    rw [h.rows, hfilter, TokenListItemRepository.whitelisted]
    exact (List.map_insertionSort _ _ row _ fun _ _ _ _ => Iff.rfl).symm
  rw [whitelisted, hsorted]
  exact query_map_row fun item hitem =>
    h.readable item (TokenListItemRepository.mem_whitelisted.mp hitem).1

/-- A number is handed out as long as it fits. -/
theorem prepareToSave_eq (h : Represents kit rows items)
    (hroom : TokenListItemRepository.lastWhitelistedId items + 1 < 2 ^ 63) :
    prepareToSave kit rows item = .ok (TokenListItemRepository.prepareToSave items item) := by
  have hnext : nextSortingId (((TokenListItemRepository.whitelisted items).getLast?.bind
      TokenListItem.sortingId).getD (-1)) = .ok _ := if_pos hroom
  unfold prepareToSave TokenListItemRepository.prepareToSave
  rw [h.find_eq, Trapping.ok_bind]
  split
  · split <;> rfl
  · split
    · rw [h.whitelisted_eq, Trapping.ok_bind]
      simp only [hnext]
      rfl
    · rfl

theorem save_represents (h : Represents kit rows items) (hreadable : Readable kit item.token)
    (hroom : TokenListItemRepository.lastWhitelistedId items + 1 < 2 ^ 63) :
    ∃ rows', save kit rows item = .ok rows' ∧
      Represents kit rows' (TokenListItemRepository.save items item) := by
  obtain ⟨number, hprepared⟩ := TokenListItemRepository.prepareToSave_eq items item
  refine ⟨_, by rw [save, h.prepareToSave_eq hroom]; rfl, ?_, fun other hother => ?_⟩
  · simp only [TokenListItemRepository.save, Table.save, Table.others, h.rows, List.filter_map,
      List.map_append, List.map_singleton]
    rfl
  · rcases Table.mem_rows_save.mp hother with rfl | ⟨hold, -⟩
    · rw [hprepared]
      exact hreadable
    · exact h.readable other hold

end Represents

/-! ## Sorting numbers that fit -/

/-- No whitelisted item has a greater number. -/
structure Bounded (items : TokenListItems) (bound : ℤ) : Prop where
  start : -1 ≤ bound
  numbers : ∀ stored ∈ items.rows, stored.status = .whitelisted → ∀ number,
    stored.sortingId = some number → number ≤ bound

/-- The sorting numbers in use leave room for as many as the list has items, and the items of
the list can be counted. -/
def Room (items : TokenListItems) (tokenList : List TokenListItem) : Prop :=
  Bounded items (2 ^ 63 - 1 - tokenList.length)

variable {bound : ℤ}

theorem Bounded.lastWhitelistedId_le (h : Bounded items bound) :
    TokenListItemRepository.lastWhitelistedId items ≤ bound := by
  rw [TokenListItemRepository.lastWhitelistedId]
  cases hlast : (TokenListItemRepository.whitelisted items).getLast? with
  | none => exact h.start
  | some last =>
      obtain ⟨hmem, hstatus⟩ := TokenListItemRepository.mem_whitelisted.mp
        (List.mem_of_getLast? hlast)
      rw [Option.bind_some]
      cases hnumber : last.sortingId with
      | none => exact h.start
      | some number => exact h.numbers last hmem hstatus number hnumber

theorem Bounded.mono {items' : TokenListItems} (h : Bounded items bound)
    (hrows : ∀ stored ∈ items'.rows, stored ∈ items.rows) : Bounded items' bound :=
  ⟨h.start, fun stored hmem => h.numbers stored (hrows stored hmem)⟩

/-- A write uses at most one number more, unless it brings a number of its own. -/
theorem Bounded.save (h : Bounded items bound) (hether : item.token.id ≠ Token.Ether.id)
    (hkeeps : ∀ existing, Table.find items item.token.id = some existing →
      existing.status = .whitelisted → ∀ number, item.sortingId = some number → number ≤ bound) :
    Bounded (TokenListItemRepository.save items item) (bound + 1) := by
  have hstart := h.start
  refine ⟨by omega, fun stored hstored hstatus number hnumber => ?_⟩
  rcases Table.mem_rows_save.mp hstored with rfl | ⟨hold, -⟩
  · rcases TokenListItemRepository.prepareToSave_spec items hether with
      ⟨existing, hfind, hexisting, -, hprepared⟩ | ⟨hplain, -⟩ | ⟨-, -, hprepared⟩
    · rw [hprepared] at hnumber
      have := hkeeps existing hfind hexisting number hnumber
      omega
    · obtain ⟨_, hprepared⟩ := TokenListItemRepository.prepareToSave_eq items item
      rw [hprepared] at hstatus
      exact absurd hstatus hplain
    · rw [hprepared] at hnumber
      cases hnumber
      have := h.lastWhitelistedId_le
      omega
  · have := h.numbers stored hold hstatus number hnumber
    omega

/-! ## The three passes -/

namespace Represents

open TokenListMerger

theorem deleteStored_eq (h : Represents kit rows items) :
    ∃ rows', deleteStored kit tokenList rows = .ok rows' ∧
      Represents kit rows' (TokenListMerger.deleteStored tokenList items) := by
  refine ⟨_, by rw [deleteStored, h.all_eq]; rfl, ?_, fun item hitem => ?_⟩
  · rw [TokenListMerger.deleteStored, Table.rows_removeAll, Table.rows_removeAll, h.rows,
      List.filter_map]
    rfl
  · exact h.readable item (Table.mem_rows_removeAll.mp hitem).1

/-- The second pass writes what it writes in memory. It gives out no numbers. -/
theorem updateListed_eq (h : Represents kit rows items) (hbound : Bounded items bound)
    (hroom : bound + tokenList.length < 2 ^ 63) (hstored : Stored queried items)
    (hreadable : ∀ latest ∈ tokenList, Readable kit latest.token)
    (hether : ∀ latest ∈ tokenList, latest.token.id ≠ Token.Ether.id)
    (hqueried : ∀ item ∈ queried, item.status = .whitelisted → ∀ number,
      item.sortingId = some number → number ≤ bound) :
    ∃ rows', updateListed kit queried tokenList rows =
        .ok ((TokenListMerger.updateListed queried tokenList items).1, rows') ∧
      Represents kit rows' (TokenListMerger.updateListed queried tokenList items).2 ∧
      Bounded (TokenListMerger.updateListed queried tokenList items).2 bound := by
  induction tokenList generalizing rows items with
  | nil => exact ⟨rows, rfl, h, hbound⟩
  | cons first rest ih =>
      rw [List.forall_mem_cons] at hreadable hether
      rw [List.length_cons, Nat.cast_succ] at hroom
      have hlast := hbound.lastWhitelistedId_le
      rw [updateListed, TokenListMerger.updateListed]
      cases hitem : queried.find? fun other => other.token.id = first.token.id with
      | none =>
          obtain ⟨rows', hrest, h', hbound'⟩ := ih h hbound (by omega) hstored hreadable.2 hether.2
          exact ⟨rows', by simp only [hrest]; rfl, h', hbound'⟩
      | some item =>
          obtain ⟨hstored', hfind⟩ := hstored.save hether.1 hitem
          obtain ⟨rows₁, hsave, h₁⟩ := @save_represents kit rows items (updated first item) h
            hreadable.1 (by omega)
          have hbound₁ : Bounded (TokenListItemRepository.save items (updated first item)) bound := by
            refine ⟨hbound.start, fun stored hmem hstatus number hnumber => ?_⟩
            have hrow := Table.find_of_mem hmem
            rw [hfind] at hrow
            split at hrow
            · cases hrow
              exact hqueried item (List.mem_of_find?_eq_some hitem) hstatus number hnumber
            · exact hbound.numbers stored (Table.mem_of_find hrow).1 hstatus number hnumber
          obtain ⟨rows', hrest, h', hbound'⟩ :=
            ih h₁ hbound₁ (by omega) hstored' hreadable.2 hether.2
          exact ⟨rows', by rw [updated] at hsave; simp only [hsave]; exact hrest, h', hbound'⟩

/-- The third pass writes what it writes in memory. -/
theorem foldlM_save_eq {remaining : List TokenListItem} (h : Represents kit rows items)
    (hbound : Bounded items bound) (hroom : bound + remaining.length < 2 ^ 63)
    (hreadable : ∀ latest ∈ remaining, Readable kit latest.token)
    (hether : ∀ latest ∈ remaining, latest.token.id ≠ Token.Ether.id)
    (hnodup : (ids remaining).Nodup)
    (hnew : ∀ latest ∈ remaining, ∀ existing, Table.find items latest.token.id = some existing →
      existing.status ≠ .whitelisted) :
    ∃ rows', remaining.foldlM (save kit) rows = .ok rows' ∧
      Represents kit rows' (remaining.foldl TokenListItemRepository.save items) := by
  induction remaining generalizing rows items bound with
  | nil => exact ⟨rows, rfl, h⟩
  | cons first rest ih =>
      obtain ⟨hfirst, hnodup⟩ := List.nodup_cons.mp hnodup
      rw [List.forall_mem_cons] at hreadable hether hnew
      rw [List.length_cons, Nat.cast_succ] at hroom
      have hlast := hbound.lastWhitelistedId_le
      obtain ⟨rows₁, hsave, h₁⟩ := h.save_represents hreadable.1 (by omega)
      have hbound₁ := hbound.save hether.1 fun existing hfind hwhite =>
        absurd hwhite (hnew.1 existing hfind)
      obtain ⟨rows', hrest, h'⟩ := ih h₁ hbound₁ (by omega) hreadable.2 hether.2 hnodup (by
        intro latest hlatest existing hexisting
        have hne : first.token.id ≠ latest.token.id := fun heq =>
          hfirst (List.mem_map.mpr ⟨latest, hlatest, heq.symm⟩)
        rw [TokenListItemRepository.find_save, if_neg hne] at hexisting
        exact hnew.2 latest hlatest existing hexisting)
      exact ⟨rows', by rw [List.foldlM_cons, hsave]; exact hrest, h'⟩

/-- The merge on the repository is the merge in memory. -/
theorem mergeStoredTokenItems_eq (h : Represents kit rows items) (hroom : Room items tokenList)
    (hreadable : ∀ latest ∈ tokenList, Readable kit latest.token) (hnodup : (ids tokenList).Nodup)
    (hether : ∀ latest ∈ tokenList, latest.token.id ≠ Token.Ether.id) :
    ∃ rows', mergeStoredTokenItems kit rows tokenList = .ok rows' ∧
      Represents kit rows' (TokenListMerger.mergeStoredTokenItems items tokenList) := by
  obtain ⟨hupdates, hrest⟩ := @updateListed_updates items tokenList hnodup hether
  obtain ⟨kept, hdelete, hkept⟩ := @deleteStored_eq kit rows items tokenList h
  have hbound : Bounded (TokenListMerger.deleteStored tokenList items)
      (2 ^ 63 - 1 - tokenList.length) :=
    hroom.mono fun stored hstored => (Table.mem_rows_removeAll.mp hstored).1
  obtain ⟨rows₁, hupdate, h₁, hbound₁⟩ := hkept.updateListed_eq hbound (by omega)
    (stored_decided _) hreadable hether fun item hitem hstatus =>
      hbound.numbers item (List.mem_filter.mp hitem).1 hstatus
  have hlength : ((TokenListMerger.updateListed (decided (TokenListMerger.deleteStored tokenList
      items)) tokenList (TokenListMerger.deleteStored tokenList items)).1.length : ℤ) ≤
        tokenList.length := by
    rw [hrest]
    exact_mod_cast List.length_filter_le _ _
  have hsub : ∀ latest ∈ (TokenListMerger.updateListed (decided (TokenListMerger.deleteStored
      tokenList items)) tokenList (TokenListMerger.deleteStored tokenList items)).1,
        latest ∈ tokenList := by
    rw [hrest]
    exact fun latest hlatest => (List.mem_filter.mp hlatest).1
  obtain ⟨rows', hfold, h'⟩ := h₁.foldlM_save_eq hbound₁ (by omega)
    (fun latest hlatest => hreadable latest (hsub latest hlatest))
    (fun latest hlatest => hether latest (hsub latest hlatest))
    (by rw [hrest]; exact hnodup.sublist (List.filter_sublist.map _))
    (by rw [hrest]; exact fun latest hlatest existing => hupdates.not_whitelisted hlatest)
  refine ⟨rows', ?_, h'⟩
  rw [mergeStoredTokenItems, hdelete, Trapping.ok_bind, hkept.all_eq, Trapping.ok_bind]
  have hqueried : ((TokenListMerger.deleteStored tokenList items).rows.filter fun item =>
      item.status = .whitelisted ∨ item.status = .blacklisted) =
        decided (TokenListMerger.deleteStored tokenList items) := rfl
  simp only [hqueried, hupdate, Trapping.ok_bind]
  exact hfold

end Represents

/-- What the repository has after the merge, if all tokens are read back and the numbers leave
room: what it should, with the new numbers above those of the tokens that were whitelisted. -/
theorem mergeStoredTokenItems_merges (h : Represents kit rows items) (hroom : Room items tokenList)
    (hreadable : ∀ latest ∈ tokenList, Readable kit latest.token)
    (hnodup : (TokenListMerger.ids tokenList).Nodup)
    (hether : ∀ latest ∈ tokenList, latest.token.id ≠ Token.Ether.id) :
    ∃ rows' merged, mergeStoredTokenItems kit rows tokenList = .ok rows' ∧
      Represents kit rows' merged ∧ TokenListMerger.Merges items tokenList merged := by
  obtain ⟨rows', hmerge, hrows'⟩ := h.mergeStoredTokenItems_eq hroom hreadable hnodup hether
  exact ⟨rows', _, hmerge, hrows', TokenListMerger.merges_mergeStoredTokenItems _ _ hnodup hether⟩

section Example

open DBTransactionRepository (marks)

/-- The rows of some items. -/
def rowsOf (items : TokenListItems) : Table TokenListItemRow.id where
  rows := items.rows.map row
  keys_nodup := by
    rw [List.map_map]
    exact items.keys_nodup

/-- A third token. -/
def omiseToken : Token :=
  ⟨"OMG", "OmiseGO", 18, ⟨"0xd26114cd6EE289AccF82350c8d8487fedB8A0C07"⟩, ""⟩

/-- One of the listed tokens was blacklisted, and one that is not listed is whitelisted. -/
def mixedItems : TokenListItems :=
  ⟨[⟨gnosisToken, .blacklisted, false, none⟩, ⟨omiseToken, .whitelisted, true, some 3⟩], by decide⟩

theorem mergeStoredTokenItems_merges_mixed : ∃ rows' merged,
    mergeStoredTokenItems marks (rowsOf mixedItems) listedItems = .ok rows' ∧
      Represents marks rows' merged ∧ TokenListMerger.Merges mixedItems listedItems merged := by
  have hrows : Represents marks (rowsOf mixedItems) mixedItems := ⟨rfl, by decide +kernel⟩
  have hroom : Room mixedItems listedItems := by
    refine ⟨by decide, fun stored hmem hstatus number hnumber => ?_⟩
    have hthree : ∀ stored ∈ mixedItems.rows, ∀ number ∈ stored.sortingId, number = 3 := by decide
    rw [hthree stored hmem number hnumber]
    decide
  exact mergeStoredTokenItems_merges hrows hroom (by decide +kernel) (by decide) (by decide)

/-- A token that was blacklisted with a number. -/
def numberedItems (status : TokenListItemStatus) (number : ℤ) : TokenListItems :=
  ⟨[⟨gnosisToken, status, false, some number⟩], List.nodup_singleton _⟩

/-- The tokens that are whitelisted are numbered without regard to a blacklisted one, a token is
lost if the separator is in its code, and the greatest integer has no successor. -/
theorem numberedBlacklist_not_above :
    (mergeStoredTokenItems marks (rowsOf (numberedItems .blacklisted 5)) listedItems >>=
        all marks) =
      .ok [⟨gnosisToken, .blacklisted, false, some 5⟩,
        ⟨raidenToken, .whitelisted, false, some 0⟩] ∧
    (mergeStoredTokenItems marks .empty [⟨{ raidenToken with code := "A~~~B" }, .regular, false,
        none⟩] >>= all marks) = .ok [] ∧
    (mergeStoredTokenItems marks (rowsOf (numberedItems .whitelisted (2 ^ 63 - 1))) listedItems >>=
        all marks) = .error .integerOverflow := by
  decide +kernel

end Example

end DBTokenListItemRepository

end SafeWallet
