/-
# The token list

Whitelisted tokens are displayed in the order of their sorting numbers. Every write goes
through `prepareToSave`, which hands out a number when a token becomes whitelisted and
takes it away when it ceases to be. In between it trusts the item it is given, and
whitelisting builds its item without a number: a token that is whitelisted twice loses its
place. Rows are taken to be read back as they were written.
-/

import SafeWallet.DomainRegistry
import Mathlib.Data.List.Sort
import Mathlib.Logic.Relation

namespace SafeWallet

namespace TokenListItemRepository

/-- The order of a nullable column: `NULL` comes first. -/
def precedes : Option ℤ → Option ℤ → Bool
  | none, _ => true
  | some _, none => false
  | some first, some second => first ≤ second

section Queries

variable (items : TokenListItems)

/-- `find(id:)`. Ether is in no row. -/
def find (id : String) : Option TokenListItem :=
  if id = Token.Ether.id then some ⟨Token.Ether, .whitelisted, true, none⟩ else Table.find items id

/-- `whitelisted()`. -/
def whitelisted : List TokenListItem :=
  (items.rows.filter fun item => item.status = .whitelisted).insertionSort
    fun first second => precedes first.sortingId second.sortingId

/-- The order in which tokens are displayed. -/
def displayed : List String := (whitelisted items).map fun item => item.token.id

/-- `prepareToSave(_:)`. -/
def prepareToSave (item : TokenListItem) : TokenListItem :=
  if (find items item.token.id).any fun existing => existing.status = .whitelisted then
    if item.status ≠ .whitelisted then { item with sortingId := none } else item
  else
    if item.status = .whitelisted then
      let lastWhitelistedId := ((whitelisted items).getLast?.bind TokenListItem.sortingId).getD (-1)
      { item with sortingId := some (lastWhitelistedId + 1) }
    else item

/-- `save(_:)`. -/
def save (item : TokenListItem) : TokenListItems := Table.save items (prepareToSave items item)

/-- `whitelist(_:)`. -/
def whitelist (token : Token) : Trapping TokenListItems := do
  let existing ← Trapping.unwrap (find items token.id)
  return save items ⟨token, .whitelisted, existing.canPayTransactionFee, none⟩

/-- `blacklist(_:)`. -/
def blacklist (token : Token) : Trapping TokenListItems := do
  let existing ← Trapping.unwrap (find items token.id)
  return save items ⟨token, .blacklisted, existing.canPayTransactionFee, none⟩

end Queries

/-- The loop of `rearrange(tokens:)`. The items that were queried are objects, so that a
number that is set stays set in them. -/
def rearrangeFrom : List TokenListItem → ℕ → List Token → TokenListItems → TokenListItems
  | _, _, [], items => items
  | queried, index, token :: rest, items =>
    match queried.find? fun item => item.token.id = token.id with
    | none => rearrangeFrom queried (index + 1) rest items
    | some item =>
      if item.sortingId = some (index : ℤ) then rearrangeFrom queried (index + 1) rest items
      else
        let item := { item with sortingId := some (index : ℤ) }
        let queried := queried.map fun other => if other.token.id = token.id then item else other
        rearrangeFrom queried (index + 1) rest (save items item)

/-- `rearrange(tokens:)`. -/
def rearrange (items : TokenListItems) (tokens : List Token) : TokenListItems :=
  rearrangeFrom (whitelisted items) 0 tokens items

end TokenListItemRepository

namespace TokenListMerger

open TokenListItemRepository

/-- `deleteStoredTokenItemsThatAreNotInList(_:)`. Items are compared by their identifiers. -/
def deleteStored (tokenList : List TokenListItem) (items : TokenListItems) : TokenListItems :=
  Table.removeAll items ((items.rows.filter fun item => item.status ≠ .whitelisted ∧
    item.token.id ∉ tokenList.map fun latest => latest.token.id).map fun item => item.token.id)

/-- The loop of `updateWhitelistedAndBlacklistedTokenItems(with:)` over the items that were
queried before it, with what remains of the list. -/
def updateListed (queried : List TokenListItem) :
    List TokenListItem → TokenListItems → List TokenListItem × TokenListItems
  | [], items => ([], items)
  | latest :: rest, items =>
    match queried.find? fun item => item.token.id = latest.token.id with
    | some item =>
      updateListed queried rest
        (save items ⟨latest.token, item.status, latest.canPayTransactionFee, item.sortingId⟩)
    | none =>
      let (remaining, items) := updateListed queried rest items
      (latest :: remaining, items)

/-- `mergeStoredTokenItems(with:)`. -/
def mergeStoredTokenItems (items : TokenListItems) (tokenList : List TokenListItem) :
    TokenListItems :=
  let items := deleteStored tokenList items
  let queried := items.rows.filter fun item =>
    item.status = .whitelisted ∨ item.status = .blacklisted
  let (remaining, items) := updateListed queried tokenList items
  remaining.foldl save items

end TokenListMerger

open TokenListItemRepository in
/-- `HTTPGnosisTransactionService.updateTokens(safe:)` for the tokens of a response. -/
def updateTokens : List Token → TokenListItems → Trapping TokenListItems
  | [], items => return items
  | token :: rest, items =>
    let existing := find items token.id
    if (existing.any fun item => item.status = .blacklisted) ∨ token.id = Token.Ether.id then
      updateTokens rest items
    else do
      let items := if existing = none then save items ⟨token, .whitelisted, false, none⟩ else items
      let items ← whitelist items token
      updateTokens rest items

end SafeWallet
