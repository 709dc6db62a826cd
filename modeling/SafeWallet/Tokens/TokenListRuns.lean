/-
# Runs of the token list

Any sequence of writes keeps the order of the displayed tokens, as long as none of them
whitelists a token that is whitelisted. Such a write takes the token's number away: the token
is displayed first from then on.
-/

import SafeWallet.Tokens.TokenOrder

namespace SafeWallet

open TokenListItemRepository TokenListMerger

variable {items items' : TokenListItems} {item : TokenListItem} {token : Token}

namespace TokenListItemRepository

/-- The token is whitelisted. -/
def Whitelisted (items : TokenListItems) (id : String) : Prop :=
  ∃ item, Table.find items id = some item ∧ item.status = .whitelisted

theorem not_whitelisted_iff {id : String} : ¬ Whitelisted items id ↔
    ∀ item, Table.find items id = some item → item.status ≠ .whitelisted := by
  simp only [Whitelisted, not_exists, not_and, ne_eq]

/-! ## Whitelisting twice -/

theorem whitelisted_nodup (items : TokenListItems) : (whitelisted items).Nodup :=
  List.Nodup.of_map _ (displayed_nodup items)

theorem precedes_antisymm {first second : Option ℤ} (h : precedes first second = true)
    (h' : precedes second first = true) : first = second := by
  cases first <;> cases second <;> simp_all [precedes]
  exact le_antisymm h h'

/-- A whitelisted token whose number is lost is displayed first. -/
theorem whitelisted_save_unnumbered (h : Ordered items) {token : Token} {canPay : Bool}
    (hether : token.id ≠ Token.Ether.id) (hwhite : Whitelisted items token.id) :
    whitelisted (save items ⟨token, .whitelisted, canPay, none⟩) =
      ⟨token, .whitelisted, canPay, none⟩ ::
        (whitelisted items).filter fun item => item.token.id ≠ token.id := by
  obtain ⟨existing, hfind, hexisting⟩ := hwhite
  have hprepared : prepareToSave items ⟨token, .whitelisted, canPay, none⟩ =
      ⟨token, .whitelisted, canPay, none⟩ :=
    prepareToSave_of_same_status hether hfind hexisting
  have hrows : ∀ row, row ∈ whitelisted (save items ⟨token, .whitelisted, canPay, none⟩) ↔
      row = ⟨token, .whitelisted, canPay, none⟩ ∨
        (row ∈ whitelisted items ∧ row.token.id ≠ token.id) := by
    intro row
    rw [mem_whitelisted, mem_whitelisted, save, hprepared, Table.mem_rows_save]
    constructor
    · rintro ⟨rfl | ⟨hmem, hne⟩, hstatus⟩
      · exact .inl rfl
      · exact .inr ⟨⟨hmem, hstatus⟩, hne⟩
    · rintro (rfl | ⟨⟨hmem, hstatus⟩, hne⟩)
      · exact ⟨.inl rfl, rfl⟩
      · exact ⟨.inr ⟨hmem, hne⟩, hstatus⟩
  apply List.Perm.eq_of_pairwise _ (pairwise_whitelisted _)
  · rw [List.pairwise_cons]
    exact ⟨fun row _ => rfl, (pairwise_whitelisted items).sublist List.filter_sublist⟩
  · rw [List.perm_ext_iff_of_nodup (whitelisted_nodup _)]
    · intro row
      rw [hrows, List.mem_cons, List.mem_filter, decide_eq_true_eq]
    · rw [List.nodup_cons]
      refine ⟨fun hmem => ?_, (whitelisted_nodup items).sublist List.filter_sublist⟩
      exact of_decide_eq_true (List.mem_filter.mp hmem).2 rfl
  · -- Both sides have the same members, whose numbers differ.
    intro first second hfirst hsecond hle hle'
    have hsame : first.sortingId = second.sortingId := precedes_antisymm hle hle'
    have hsecond : second = ⟨token, .whitelisted, canPay, none⟩ ∨
        (second ∈ whitelisted items ∧ second.token.id ≠ token.id) := by
      simpa using hsecond
    have hnumbered : ∀ row ∈ whitelisted items, row.sortingId ≠ none := by
      intro row hrow
      obtain ⟨hmem, hstatus⟩ := mem_whitelisted.mp hrow
      exact h.numbered row hmem hstatus
    rcases (hrows first).mp hfirst with rfl | ⟨hmem, -⟩ <;> rcases hsecond with rfl | ⟨hmem', -⟩
    · rfl
    · exact absurd hsame.symm (hnumbered second hmem')
    · exact absurd hsame (hnumbered first hmem)
    · obtain ⟨hrow, hstatus⟩ := mem_whitelisted.mp hmem
      obtain ⟨hrow', hstatus'⟩ := mem_whitelisted.mp hmem'
      exact h.distinct first hrow second hrow' hstatus hstatus' hsame

/-- Whitelisting a whitelisted token keeps the displayed order only if the token is displayed
first. -/
theorem whitelist_again (h : Ordered items) (hether : token.id ≠ Token.Ether.id)
    (hwhite : Whitelisted items token.id) : ∃ items', whitelist items token = .ok items' ∧
      (displayed items' = displayed items ↔ (displayed items).head? = some token.id) := by
  obtain ⟨existing, hfind, hexisting⟩ := hwhite
  refine ⟨save items ⟨token, .whitelisted, existing.canPayTransactionFee, none⟩, ?_, ?_⟩
  · simp [whitelist, find, hether, hfind, Trapping.unwrap]
  · rw [displayed, displayed, whitelisted_save_unnumbered h hether ⟨existing, hfind, hexisting⟩,
      List.map_cons]
    have hnodup : ((whitelisted items).map fun item => item.token.id).Nodup :=
      displayed_nodup items
    constructor
    · intro heq
      rw [← heq, List.head?_cons]
    · intro hhead
      cases hlist : whitelisted items with
      | nil => simp [hlist] at hhead
      | cons first rest =>
          rw [hlist, List.map_cons, List.nodup_cons] at hnodup
          have hfirst : first.token.id = token.id := by simpa [hlist] using hhead
          have hrest : rest.filter (fun item => item.token.id ≠ token.id) = rest := by
            rw [List.filter_eq_self]
            intro row hrow
            rw [decide_eq_true_eq, ← hfirst]
            exact fun hid => hnodup.1 (List.mem_map.mpr ⟨row, hrow, hid⟩)
          rw [List.filter_cons_of_neg (by simp [hfirst]), hrest, List.map_cons, hfirst]

/-- What is found after a token was whitelisted. -/
theorem find_whitelist (h : whitelist items token = .ok items') {id : String}
    (hne : token.id ≠ id) : Table.find items' id = Table.find items id := by
  simp only [whitelist, Trapping.bind_eq_ok_iff] at h
  obtain ⟨existing, -, h⟩ := h
  cases h
  rw [find_save, if_neg hne]

end TokenListItemRepository

/-! ## The tokens of a Safe -/

/-- The tokens that are not skipped are stored, not whitelisted and not repeated. -/
structure Updatable (items : TokenListItems) (tokens : List Token) : Prop where
  stored : ∀ token ∈ tokens, token.id ≠ Token.Ether.id →
    ∃ existing, Table.find items token.id = some existing ∧ existing.status ≠ .whitelisted
  once : tokens.Pairwise fun first second => first.id = second.id →
    first.id = Token.Ether.id ∨
      ∃ existing, Table.find items first.id = some existing ∧ existing.status = .blacklisted

/-- Whitelisting the first token leaves the others as they were. -/
theorem Updatable.whitelist_head {rest : List Token} (h : Updatable items (token :: rest))
    (hether : token.id ≠ Token.Ether.id)
    (hnot : ∀ existing, Table.find items token.id = some existing →
      existing.status ≠ .blacklisted)
    (hdone : whitelist items token = .ok items') : Updatable items' rest := by
  obtain ⟨hfirst, honce⟩ := List.pairwise_cons.mp h.once
  constructor
  · intro other hother hotherEther
    have hne : token.id ≠ other.id := by
      intro heq
      rcases hfirst other hother heq with hsame | ⟨existing, hfind, hblack⟩
      · exact hether hsame
      · exact hnot existing hfind hblack
    rw [find_whitelist hdone hne]
    exact h.stored other (List.mem_cons_of_mem _ hother) hotherEther
  · apply honce.imp
    intro first second hfirst hid
    rcases hfirst hid with hsame | ⟨existing, hfind, hblack⟩
    · exact .inl hsame
    · have hne : token.id ≠ first.id := fun heq => hnot existing (heq ▸ hfind) hblack
      exact .inr ⟨existing, by rw [find_whitelist hdone hne, hfind], hblack⟩

theorem updateTokens_ordered {tokens : List Token} (h : Ordered items)
    (htokens : Updatable items tokens) (hdone : updateTokens tokens items = .ok items') :
    Ordered items' := by
  induction tokens generalizing items with
  | nil =>
      cases hdone
      exact h
  | cons token rest ih =>
      rw [updateTokens] at hdone
      simp only at hdone
      split at hdone
      case isTrue =>
        exact ih h ⟨fun other hother => htokens.stored other (List.mem_cons_of_mem _ hother),
          (List.pairwise_cons.mp htokens.once).2⟩ hdone
      case isFalse hkeep =>
        rw [not_or] at hkeep
        obtain ⟨hnot, hether⟩ := hkeep
        obtain ⟨existing, hfind, hplain⟩ := htokens.stored token List.mem_cons_self hether
        rw [find_of_not_ether hether, hfind] at hnot hdone
        rw [if_neg (Option.some_ne_none existing), Trapping.bind_eq_ok_iff] at hdone
        obtain ⟨next, hwhitelist, hdone⟩ := hdone
        have hexisting : ∀ found, Table.find items token.id = some found → found = existing := by
          intro found hfound
          rw [hfind] at hfound
          exact (Option.some.inj hfound).symm
        apply ih _ _ hdone
        · apply whitelist_ordered h hether _ hwhitelist
          intro found hfound
          rw [hexisting found hfound]
          exact hplain
        · apply htokens.whitelist_head hether _ hwhitelist
          intro found hfound hblack
          rw [hexisting found hfound] at hblack
          exact hnot (by simp [hblack])

/-! ## Runs -/

/-- The operations on the token list. -/
inductive TokenListOperation
  | save (item : TokenListItem)
  | whitelist (token : Token)
  | blacklist (token : Token)
  | rearrange (tokens : List Token)
  | mergeStoredTokenItems (tokenList : List TokenListItem)
  | updateTokens (tokens : List Token)

namespace TokenListOperation

/-- What an operation leaves in the repository. -/
def perform : TokenListOperation → TokenListItems → Trapping TokenListItems
  | save item, items => return TokenListItemRepository.save items item
  | whitelist token, items => TokenListItemRepository.whitelist items token
  | blacklist token, items => TokenListItemRepository.blacklist items token
  | rearrange tokens, items => return TokenListItemRepository.rearrange items tokens
  | mergeStoredTokenItems tokenList, items =>
    return TokenListMerger.mergeStoredTokenItems items tokenList
  | updateTokens tokens, items => SafeWallet.updateTokens tokens items

/-- New items are saved, the displayed tokens are rearranged, and Ether stays out of the
list. Updating the tokens of a Safe skips Ether by itself. -/
def Allowed (items : TokenListItems) : TokenListOperation → Prop
  | save item => item.token.id ≠ Token.Ether.id ∧ Table.find items item.token.id = none
  | whitelist token => token.id ≠ Token.Ether.id
  | blacklist token => token.id ≠ Token.Ether.id
  | rearrange tokens => (∀ token ∈ tokens, token.id ≠ Token.Ether.id) ∧
    (tokens.map Token.id).Perm (displayed items)
  | mergeStoredTokenItems tokenList => ∀ item ∈ tokenList, item.token.id ≠ Token.Ether.id
  | updateTokens _ => True

/-- No whitelisted token is whitelisted, and what is not whitelisted brings no number. -/
def Careful (items : TokenListItems) : TokenListOperation → Prop
  | save item => item.status ≠ .whitelisted → item.sortingId = none
  | whitelist token => ¬ Whitelisted items token.id
  | blacklist _ => True
  | rearrange _ => True
  | mergeStoredTokenItems tokenList => ListedOnce tokenList ∧
    ∀ item ∈ tokenList, item.status ≠ .whitelisted → item.sortingId = none
  | updateTokens tokens => Updatable items tokens

/-- One careful operation keeps the numbers in order. -/
theorem perform_ordered {operation : TokenListOperation} (h : Ordered items)
    (hallowed : operation.Allowed items) (hcareful : operation.Careful items)
    (hdone : operation.perform items = .ok items') : Ordered items' := by
  cases operation with
  | save item =>
      cases hdone
      exact save_ordered h {
        not_ether := hallowed.1
        keeps := fun existing hfound => by simp [hallowed.2] at hfound
        plain := hcareful }
  | whitelist token =>
      exact whitelist_ordered h hallowed (not_whitelisted_iff.mp hcareful) hdone
  | blacklist token => exact blacklist_ordered h hallowed hdone
  | rearrange tokens =>
      cases hdone
      exact rearrange_ordered h hallowed.1 hallowed.2
  | mergeStoredTokenItems tokenList =>
      cases hdone
      exact mergeStoredTokenItems_ordered h hcareful.1 hallowed hcareful.2
  | updateTokens tokens => exact updateTokens_ordered h hcareful hdone

end TokenListOperation

/-- One allowed operation. -/
def TokenListStep (items items' : TokenListItems) : Prop :=
  ∃ operation : TokenListOperation, operation.Allowed items ∧ operation.perform items = .ok items'

/-- One allowed operation that is careful. -/
def CarefulTokenListStep (items items' : TokenListItems) : Prop :=
  ∃ operation : TokenListOperation, operation.Allowed items ∧ operation.Careful items ∧
    operation.perform items = .ok items'

theorem ordered_of_careful_run (h : Relation.ReflTransGen CarefulTokenListStep Table.empty items) :
    Ordered items := by
  induction h with
  | refl => exact ordered_empty
  | tail _ hstep ih =>
      obtain ⟨operation, hallowed, hcareful, hdone⟩ := hstep
      exact operation.perform_ordered ih hallowed hcareful hdone

/-- Whitelisting a token that is whitelisted leaves the displayed order as it is. -/
def KeepsOrder (items : TokenListItems) (token : Token) : Prop :=
  ∃ items', whitelist items token = .ok items' ∧ displayed items' = displayed items

/-- In every careful run the numbers are in order, and whitelisting a token again keeps the
displayed order exactly if the token is displayed first. -/
theorem token_order_invariant (h : Relation.ReflTransGen CarefulTokenListStep Table.empty items) :
    Ordered items ∧ ∀ token : Token, token.id ≠ Token.Ether.id → Whitelisted items token.id →
      (KeepsOrder items token ↔ (displayed items).head? = some token.id) := by
  have hordered := ordered_of_careful_run h
  refine ⟨hordered, fun token hether hwhite => ?_⟩
  obtain ⟨items', hdone, hiff⟩ := whitelist_again hordered hether hwhite
  rw [← hiff]
  constructor
  · rintro ⟨other, hother, heq⟩
    rw [hdone] at hother
    cases hother
    exact heq
  · exact fun heq => ⟨items', hdone, heq⟩

/-- A token of a Safe. -/
def gnosisToken : Token :=
  ⟨"GNO", "Gnosis", 18, ⟨"0x6810e776880C02933D47DB1b9fc05908e5386b96"⟩, ""⟩

/-- Another token. -/
def raidenToken : Token :=
  ⟨"RDN", "Raiden", 18, ⟨"0x255Aa6DF07540Cb5d3d297f0D0D4D84cb52bc8e6"⟩, ""⟩

/-- The items of a token list that whitelists both. -/
def listedItems : List TokenListItem :=
  [⟨gnosisToken, .whitelisted, false, none⟩, ⟨raidenToken, .whitelisted, false, none⟩]

theorem listedItems_step :
    CarefulTokenListStep Table.empty (mergeStoredTokenItems Table.empty listedItems) := by
  have hallowed : ∀ item ∈ listedItems, item.token.id ≠ Token.Ether.id := by decide
  have honce : listedItems.Pairwise fun first second => first.token.id = second.token.id →
    first.status = .whitelisted → second.status ≠ .whitelisted := by decide
  have hplain : ∀ item ∈ listedItems, item.status ≠ .whitelisted → item.sortingId = none := by
    decide
  exact ⟨.mergeStoredTokenItems listedItems, hallowed, ⟨honce, hplain⟩, rfl⟩

theorem token_order_invariant_listedItems :
    displayed (mergeStoredTokenItems Table.empty listedItems) = [gnosisToken.id, raidenToken.id] ∧
      Ordered (mergeStoredTokenItems Table.empty listedItems) :=
  ⟨by decide +kernel, (token_order_invariant (.single listedItems_step)).1⟩

/-- Updating the tokens of a Safe leaves a new token without a number. -/
theorem token_order_lost : ¬ ∀ items, Relation.ReflTransGen TokenListStep Table.empty items →
    Ordered items ∧ ∀ token : Token, token.id ≠ Token.Ether.id → Whitelisted items token.id →
      KeepsOrder items token := by
  intro h
  have hdone : updateTokens [gnosisToken] Table.empty = .ok
      ((updateTokens [gnosisToken] Table.empty).toOption.getD Table.empty) := by rfl
  have hordered := (h _ (.single ⟨.updateTokens [gnosisToken], trivial, hdone⟩)).1
  have hrow : ⟨gnosisToken, .whitelisted, false, none⟩ ∈
      ((updateTokens [gnosisToken] Table.empty).toOption.getD Table.empty).rows := by decide +kernel
  exact hordered.numbered _ hrow rfl rfl

end SafeWallet
