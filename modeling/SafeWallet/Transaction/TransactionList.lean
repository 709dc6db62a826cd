/-
# The list of transactions

The list on the screen starts with the pending transactions and shows the others by
day, the newest day first. The service sorts all transactions by their dates and then
walks over them once, with one group for what is pending and a new group whenever the
day changes.

The comparison walks over two lists of dates of different lengths. It is the order of
these lists with the newest date first, refined by the status and the identifier, and
this is a linear order.
-/

import Mathlib.Data.List.Sort
import Mathlib.Data.Prod.Lex
import Mathlib.Data.String.Basic
import SafeWallet.Base.Grouping
import SafeWallet.Repositories.LoadedTransactions
import SafeWallet.Repositories.TokenPersistence

namespace SafeWallet

open DBTransactionRepository

theorem TransactionStatus.rawValue_injective : Function.Injective rawValue := by
  intro first second h
  cases first <;> cases second <;> first | rfl | cases h

/-- `allEventDates`. -/
def Transaction.allEventDates (tx : Transaction) : List Date :=
  [tx.processedDate, tx.submittedDate, tx.rejectedDate, tx.updatedDate,
    tx.createdDate].reduceOption

/-! ## The service -/

/-- `TransactionGroup.GroupType`. -/
inductive GroupType
  | pending
  | processed
  deriving DecidableEq, Repr

/-- `TransactionGroup`. -/
structure TransactionGroup where
  type : GroupType
  date : Option Date
  transactions : List Transaction
  deriving DecidableEq, Repr

namespace TransactionDomainService

/-- The loop of the comparison in `allTransactions()`, over the dates that are left. -/
def compare (lhs rhs : Transaction) : List Date → List Date → Bool
  | [], _ :: _ => true
  | _ :: _, [] => false
  | left :: lDates, right :: rDates =>
    if left = right then compare lhs rhs lDates rDates else decide (left > right)
  | [], [] =>
    if lhs.status = rhs.status then decide (lhs.id < rhs.id)
    else decide (lhs.status.rawValue < rhs.status.rawValue)

/-- The comparison of `allTransactions()`. -/
def areInIncreasingOrder (lhs rhs : Transaction) : Bool :=
  compare lhs rhs lhs.allEventDates rhs.allEventDates

/-- The filter of `allTransactions()`. -/
def isListed (walletID : Option WalletID) (tx : Transaction) : Bool :=
  tx.status ≠ .draft ∧ tx.status ≠ .signing ∧ tx.status ≠ .rejected ∧
    some tx.accountID.walletID = walletID

/-- The wallet selected in the portfolio, if there is one. -/
def selectedWalletID (store : Store) : Option WalletID :=
  store.portfolio.bind Portfolio.selectedWallet

/-- The filter and the sort of `allTransactions()`. -/
def inOrder (store : Store) (txs : List Transaction) : List Transaction :=
  (txs.filter (isListed (selectedWalletID store))).insertionSort
    fun lhs rhs => areInIncreasingOrder rhs lhs = false

variable (kit : TextKit) (repository : Repository) (store : Store) (now : Date)

/-- `allTransactions()`. -/
def allTransactions : Trapping (List Transaction) := do
  return inOrder store (← all kit repository now)

variable (dateForGrouping : Date → Date)

/-- A processed transaction in the loop of `grouppedTransactions()`. -/
def appended (groups : List TransactionGroup) (txDate : Date) (tx : Transaction) :
    List TransactionGroup :=
  let groups := if groups.getLast?.bind TransactionGroup.date ≠ some txDate then
    groups ++ [⟨.processed, some txDate, []⟩] else groups
  groups.modify (groups.length - 1) fun group =>
    { group with transactions := group.transactions ++ [tx] }

/-- A round of the loop of `grouppedTransactions()`: the group of the pending transactions and
the groups of the days. -/
def round (state : TransactionGroup × List TransactionGroup) (tx : Transaction) :
    Trapping (TransactionGroup × List TransactionGroup) :=
  if tx.status = .pending then
    return ({ state.1 with transactions := state.1.transactions ++ [tx] }, state.2)
  else do
    Trapping.require tx.allEventDates.head?.isSome
    let date ← Trapping.unwrap tx.allEventDates.head?
    return (state.1, appended state.2 (dateForGrouping date) tx)

/-- `grouppedTransactions()`. -/
def grouppedTransactions : Trapping (List TransactionGroup) := do
  let pendingGroup : TransactionGroup := ⟨.pending, none, []⟩
  let (pendingGroup, groups) ←
    (← allTransactions kit repository store now).foldlM (round dateForGrouping) (pendingGroup, [])
  return (pendingGroup :: groups).filter fun group => group.transactions ≠ []

end TransactionDomainService

/-! ## The order -/

/-- What the comparison looks at: the dates, the newest first, then the status and the
identifier. -/
def Transaction.sortingKey (tx : Transaction) : List Dateᵒᵈ ×ₗ ℕ ×ₗ String :=
  toLex (tx.allEventDates.map OrderDual.toDual, toLex (tx.status.rawValue, tx.id))

namespace TransactionDomainService

theorem compare_iff (lhs rhs : Transaction) (lDates rDates : List Date) :
    compare lhs rhs lDates rDates = true ↔
      toLex (lDates.map OrderDual.toDual, toLex (lhs.status.rawValue, lhs.id)) <
        toLex (rDates.map OrderDual.toDual, toLex (rhs.status.rawValue, rhs.id)) := by
  induction lDates generalizing rDates with
  | nil =>
      cases rDates with
      | nil =>
          rw [compare, Prod.Lex.toLex_lt_toLex, Prod.Lex.toLex_lt_toLex]
          by_cases hstatus : lhs.status = rhs.status
          · simp [hstatus]
          · have hraw := TransactionStatus.rawValue_injective.ne hstatus
            simp [hstatus, hraw]
      | cons right rDates => simp [compare, Prod.Lex.toLex_lt_toLex]
  | cons left lDates ih =>
      cases rDates with
      | nil => simp [compare, Prod.Lex.toLex_lt_toLex]
      | cons right rDates =>
          rw [compare]
          by_cases hdate : left = right
          · rw [if_pos hdate, ih, hdate]
            simp [Prod.Lex.toLex_lt_toLex]
          · rw [if_neg hdate]
            simp [Prod.Lex.toLex_lt_toLex, hdate, List.cons_lt_cons_iff]

theorem areInIncreasingOrder_iff {lhs rhs : Transaction} :
    areInIncreasingOrder lhs rhs = true ↔ lhs.sortingKey < rhs.sortingKey :=
  compare_iff lhs rhs lhs.allEventDates rhs.allEventDates

/-- The date of the creation is among the dates. -/
theorem exists_newest {tx : Transaction} (h : tx.createdDate.isSome) :
    ∃ date, tx.allEventDates.head? = some date := by
  obtain ⟨created, hcreated⟩ := Option.isSome_iff_exists.mp h
  have hmem : created ∈ tx.allEventDates := by
    simp [Transaction.allEventDates, List.reduceOption_mem_iff, hcreated]
  exact ⟨_, List.head?_eq_some_head (List.ne_nil_of_mem hmem)⟩

/-- The list puts no event before a newer one. -/
theorem newest_le {lhs rhs : Transaction} (h : lhs.sortingKey ≤ rhs.sortingKey) {left right : Date}
    (hleft : lhs.allEventDates.head? = some left) (hright : rhs.allEventDates.head? = some right) :
    right ≤ left := by
  obtain ⟨lDates, hlDates⟩ := List.head?_eq_some_iff.mp hleft
  obtain ⟨rDates, hrDates⟩ := List.head?_eq_some_iff.mp hright
  by_contra hlt
  have hdates : rhs.allEventDates.map OrderDual.toDual < lhs.allEventDates.map OrderDual.toDual := by
    rw [hlDates, hrDates, List.map_cons, List.map_cons, List.cons_lt_cons_iff]
    exact .inl (not_le.mp hlt)
  have hkey : rhs.sortingKey < lhs.sortingKey := Prod.Lex.toLex_lt_toLex.mpr (.inl hdates)
  exact hkey.not_ge h

/-! ## The groups -/

section Groups

variable (store : Store) (txs : List Transaction)

/-- The transactions the list is made of: those of the selected wallet that are pending or
processed. -/
def listed : List Transaction :=
  txs.filter fun tx =>
    some tx.accountID.walletID = selectedWalletID store ∧
      (tx.status = .pending ∨ tx.status = .failed ∨ tx.status = .success)

theorem inOrder_perm : (inOrder store txs).Perm (listed store txs) := by
  have hfilter : txs.filter (isListed (selectedWalletID store)) = listed store txs := by
    apply List.filter_congr
    intro tx _
    rw [isListed]
    cases tx.status <;> simp
  rw [inOrder, hfilter]
  exact List.perm_insertionSort _ _

theorem inOrder_sorted :
    (inOrder store txs).Pairwise fun lhs rhs => lhs.sortingKey ≤ rhs.sortingKey := by
  have hle : ∀ lhs rhs : Transaction, areInIncreasingOrder rhs lhs = false ↔
      lhs.sortingKey ≤ rhs.sortingKey := by
    intro lhs rhs
    rw [← not_lt, ← areInIncreasingOrder_iff, Bool.not_eq_true]
  have htotal : Std.Total fun lhs rhs => areInIncreasingOrder rhs lhs = false :=
    ⟨fun lhs rhs => by simpa only [hle] using le_total lhs.sortingKey rhs.sortingKey⟩
  have htrans : IsTrans Transaction fun lhs rhs => areInIncreasingOrder rhs lhs = false :=
    ⟨fun lhs mid rhs => by simpa only [hle] using le_trans⟩
  exact (List.pairwise_insertionSort _ _).imp (hle _ _).mp

end Groups

variable (dateForGrouping : Date → Date)

/-- The day of a transaction that has a date. -/
def day (tx : Transaction) : Date := dateForGrouping (tx.allEventDates.headD 0)

/-- The group of a day. -/
def dayGroup (group : Date × List Transaction) : TransactionGroup :=
  ⟨.processed, some group.1, group.2⟩

theorem appended_map (groups : List (Date × List Transaction)) (tx : Transaction) :
    appended (groups.map dayGroup) (day dateForGrouping tx) tx =
      (Grouping.place (day dateForGrouping) groups tx).map dayGroup := by
  simp only [appended, Grouping.place]
  induction groups using List.reverseRecOn with
  | nil => simp [dayGroup]
  | append_singleton front last _ =>
      by_cases hlast : last.1 = day dateForGrouping tx
      · have hkeep : ((front ++ [last]).map dayGroup).getLast?.bind TransactionGroup.date =
            some (day dateForGrouping tx) := by
          simp [dayGroup, hlast]
        rw [if_neg (not_not.mpr hkeep), if_pos (by simp [hlast]), Grouping.modify_last,
          List.map_append, List.map_singleton, Grouping.modify_last]
        simp [dayGroup]
      · have hopen : ((front ++ [last]).map dayGroup).getLast?.bind TransactionGroup.date ≠
            some (day dateForGrouping tx) := by
          simpa [dayGroup] using hlast
        rw [if_pos hopen, if_neg (by simpa using hlast), Grouping.modify_last]
        simp [dayGroup]

/-- The loop, when every transaction has a date. -/
theorem foldlM_round (txs : List Transaction) (hdates : ∀ tx ∈ txs, tx.allEventDates ≠ [])
    (pendings : List Transaction) (groups : List (Date × List Transaction)) :
    txs.foldlM (round dateForGrouping) (⟨.pending, none, pendings⟩, groups.map dayGroup) =
      .ok (⟨.pending, none, pendings ++ txs.filter (·.status = .pending)⟩,
        ((txs.filter (·.status ≠ .pending)).foldl
          (Grouping.place (day dateForGrouping)) groups).map dayGroup) := by
  induction txs generalizing pendings groups with
  | nil => simp
  | cons tx rest ih =>
      have hrest : ∀ tx ∈ rest, tx.allEventDates ≠ [] :=
        fun tx htx => hdates tx (List.mem_cons_of_mem _ htx)
      rw [List.foldlM_cons, round]
      by_cases hpending : tx.status = .pending
      · rw [if_pos hpending, Trapping.pure_eq_ok, Trapping.ok_bind, ih hrest]
        simp [hpending]
      · obtain ⟨date, dates, hcons⟩ := List.exists_cons_of_ne_nil (hdates tx List.mem_cons_self)
        have hday : dateForGrouping date = day dateForGrouping tx := by simp [day, hcons]
        simp only [if_neg hpending, hcons, List.head?_cons, Option.isSome_some,
          Trapping.require_true, Trapping.unwrap_some, Trapping.ok_bind, Trapping.pure_eq_ok, hday,
          appended_map, ih hrest]
        simp [hpending]

/-! ## The list -/

/-- A comparison that is a strict order, and a total one on the elements of a list. -/
structure StrictTotalOn (before : Transaction → Transaction → Bool) (txs : List Transaction) :
    Prop where
  irrefl : ∀ tx, before tx tx = false
  trans : ∀ first second third, before first second = true → before second third = true →
    before first third = true
  total : ∀ lhs ∈ txs, ∀ rhs ∈ txs, lhs ≠ rhs → before lhs rhs = true ∨ before rhs lhs = true

/-- Groups that show the listed transactions once each. Only the first group can be the one of
the pending transactions, which has all of them; every other group has all the processed
transactions of its day, and the days go back in time. -/
structure Shows (listed : List Transaction) (groups : List TransactionGroup) : Prop where
  perm : (groups.flatMap TransactionGroup.transactions).Perm listed
  nonempty : ∀ group ∈ groups, group.transactions ≠ []
  sorted : ∀ group ∈ groups, group.transactions.Pairwise fun lhs rhs =>
    areInIncreasingOrder lhs rhs = true
  pendingFirst : groups.Pairwise fun _ later => later.type = .processed
  pending : ∀ group ∈ groups, group.type = .pending →
    ∀ tx, tx ∈ group.transactions ↔ tx ∈ listed ∧ tx.status = .pending
  processed : ∀ group ∈ groups, group.type = .processed →
    ∃ date, group.date = some date ∧ ∀ tx, tx ∈ group.transactions ↔
      tx ∈ listed ∧ tx.status ≠ .pending ∧
        tx.allEventDates.head?.map dateForGrouping = some date
  descending : groups.Pairwise fun first second => ∀ date ∈ first.date, ∀ date' ∈ second.date,
    date' < date

section Loaded

variable {kit : TextKit} {repository : Repository} {now : Date} {txs : List Transaction}
  (hall : all kit repository now = .ok txs) (store : Store)

include hall

theorem strictTotalOn_all : StrictTotalOn areInIncreasingOrder txs where
  irrefl tx := by
    rw [← Bool.not_eq_true, areInIncreasingOrder_iff]
    exact lt_irrefl _
  trans first second third := by
    simp only [areInIncreasingOrder_iff]
    exact lt_trans
  total lhs hlhs rhs hrhs hne := by
    rw [areInIncreasingOrder_iff, areInIncreasingOrder_iff]
    apply lt_or_gt_of_ne
    intro hkey
    have hid : lhs.id = rhs.id := congrArg (fun key => (ofLex (ofLex key).2).2) hkey
    exact hne (eq_of_mem_all hall hlhs hrhs hid)

omit hall in
theorem mem_of_mem_inOrder {tx : Transaction} (h : tx ∈ inOrder store txs) : tx ∈ txs :=
  List.mem_of_mem_filter ((inOrder_perm store txs).mem_iff.mp h)

/-- Sorted strictly, as no transaction is there twice. -/
theorem inOrder_strict :
    (inOrder store txs).Pairwise fun lhs rhs => areInIncreasingOrder lhs rhs = true := by
  have hnodup : (inOrder store txs).Nodup :=
    (inOrder_perm store txs).nodup_iff.mpr ((ids_nodup hall).of_map.filter _)
  refine ((inOrder_sorted store txs).and hnodup).imp_of_mem ?_
  intro lhs rhs hlhs hrhs hpair
  rcases (strictTotalOn_all hall).total lhs (mem_of_mem_inOrder store hlhs) rhs
    (mem_of_mem_inOrder store hrhs) hpair.2 with hlt | hgt
  · exact hlt
  · exact absurd hpair.1 (areInIncreasingOrder_iff.mp hgt).not_ge

/-- Every transaction that is loaded has the date of its creation. -/
theorem exists_date {tx : Transaction} (h : tx ∈ inOrder store txs) :
    ∃ date, tx.allEventDates.head? = some date := by
  obtain ⟨row, -, hload⟩ := (mem_all_iff hall).mp (mem_of_mem_inOrder store h)
  exact exists_newest (dated_of_load hload).1.createdDate

variable {dateForGrouping} in
/-- In the sorted list the days go back in time. -/
theorem pairwise_day (hmono : Monotone dateForGrouping) :
    (inOrder store txs).Pairwise fun lhs rhs =>
      day dateForGrouping rhs ≤ day dateForGrouping lhs := by
  refine (inOrder_sorted store txs).imp_of_mem ?_
  intro lhs rhs hlhs hrhs hle
  obtain ⟨left, hleft⟩ := exists_date hall store hlhs
  obtain ⟨right, hright⟩ := exists_date hall store hrhs
  rw [day, day, List.headD_eq_head?_getD, List.headD_eq_head?_getD, hleft, hright]
  exact hmono (newest_le hle hleft hright)

end Loaded

variable {dateForGrouping}

/-- The groups that are left: the pending one if it has a transaction, and those of the days. -/
def shownGroups (pendings : List Transaction) (runs : List (Date × List Transaction)) :
    List TransactionGroup :=
  (if pendings = [] then [] else [⟨.pending, none, pendings⟩]) ++ runs.map dayGroup

theorem filter_eq_shownGroups (pendings : List Transaction) {runs : List (Date × List Transaction)}
    (hruns : ∀ run ∈ runs, run.2 ≠ []) :
    ((⟨.pending, none, pendings⟩ : TransactionGroup) :: runs.map dayGroup).filter
      (fun group => group.transactions ≠ []) = shownGroups pendings runs := by
  have hdays : (runs.map dayGroup).filter (fun group => group.transactions ≠ []) =
      runs.map dayGroup := by
    rw [List.filter_eq_self]
    intro group hgroup
    obtain ⟨run, hrun, rfl⟩ := List.mem_map.mp hgroup
    rw [decide_eq_true_eq]
    exact hruns run hrun
  rw [List.filter_cons, hdays, shownGroups]
  by_cases hpendings : pendings = [] <;> simp [hpendings]

theorem mem_shownGroups {pendings : List Transaction} {runs : List (Date × List Transaction)}
    {group : TransactionGroup} : group ∈ shownGroups pendings runs ↔
      pendings ≠ [] ∧ group = ⟨.pending, none, pendings⟩ ∨ ∃ run ∈ runs, dayGroup run = group := by
  rw [shownGroups, List.mem_append, List.mem_map]
  split <;> simp_all

/-- What is shown of a sorted list with its days grouped. -/
theorem shows_of_grouped {txs : List Transaction} {runs : List (Date × List Transaction)}
    (hdates : ∀ tx ∈ txs, ∃ date, tx.allEventDates.head? = some date)
    (hsorted : txs.Pairwise fun lhs rhs => areInIncreasingOrder lhs rhs = true)
    (hruns : Grouping.Grouped (day dateForGrouping) (txs.filter (·.status ≠ .pending)) runs) :
    Shows dateForGrouping txs (shownGroups (txs.filter (·.status = .pending)) runs) where
  perm := by
    have hdays : (runs.map dayGroup).flatMap TransactionGroup.transactions =
        txs.filter (·.status ≠ .pending) := by
      rw [List.flatMap_map, ← hruns.flatten]
      rfl
    have hpendings : (if txs.filter (·.status = .pending) = [] then []
        else [⟨.pending, none, txs.filter (·.status = .pending)⟩] :
          List TransactionGroup).flatMap TransactionGroup.transactions =
            txs.filter (·.status = .pending) := by
      split <;> simp_all
    rw [shownGroups, List.flatMap_append, hdays, hpendings]
    simpa using List.filter_append_perm (fun tx : Transaction => decide (tx.status = .pending)) txs
  nonempty := by
    intro group hgroup
    rcases mem_shownGroups.mp hgroup with ⟨hne, rfl⟩ | ⟨run, hrun, rfl⟩
    · exact hne
    · exact (hruns.keyed run hrun).1
  sorted := by
    intro group hgroup
    rcases mem_shownGroups.mp hgroup with ⟨hne, rfl⟩ | ⟨run, hrun, rfl⟩
    · exact hsorted.sublist List.filter_sublist
    · have hsub : run.2.Sublist (txs.filter (·.status ≠ .pending)) := by
        rw [← hruns.flatten, List.flatMap]
        exact List.sublist_flatten_of_mem (List.mem_map_of_mem hrun)
      exact hsorted.sublist (hsub.trans List.filter_sublist)
  pendingFirst := by
    have hdays : (runs.map dayGroup).Pairwise fun _ later => later.type = .processed :=
      List.pairwise_map.mpr (List.pairwise_of_forall fun _ _ => rfl)
    rw [shownGroups]
    split
    · exact hdays
    · refine List.pairwise_cons.mpr ⟨fun later hlater => ?_, hdays⟩
      obtain ⟨run, -, rfl⟩ := List.mem_map.mp hlater
      rfl
  pending := by
    intro group hgroup htype tx
    rcases mem_shownGroups.mp hgroup with ⟨hne, rfl⟩ | ⟨run, hrun, rfl⟩
    · simp
    · cases htype
  processed := by
    intro group hgroup htype
    rcases mem_shownGroups.mp hgroup with ⟨hne, rfl⟩ | ⟨run, hrun, rfl⟩
    · cases htype
    · refine ⟨run.1, rfl, fun tx => ?_⟩
      have hmem : tx ∈ (dayGroup run).transactions ↔ _ := hruns.mem_iff hrun
      rw [hmem, List.mem_filter, and_assoc, decide_eq_true_eq]
      refine and_congr_right fun htx => and_congr_right fun _ => ?_
      obtain ⟨date, hdate⟩ := hdates tx htx
      rw [day, List.headD_eq_head?_getD, hdate]
      simp
  descending := by
    have hdays : (runs.map dayGroup).Pairwise fun first second =>
        ∀ date ∈ first.date, ∀ date' ∈ second.date, date' < date := by
      refine List.pairwise_map.mpr (hruns.descending.imp fun hlt => ?_)
      simpa [dayGroup] using hlt
    rw [shownGroups]
    split
    · exact hdays
    · exact List.pairwise_cons.mpr ⟨by simp, hdays⟩

theorem Shows.of_perm {txs txs' : List Transaction} {groups : List TransactionGroup}
    (h : Shows dateForGrouping txs groups) (hperm : txs.Perm txs') :
    Shows dateForGrouping txs' groups := by
  obtain ⟨hgroups, hnonempty, hsorted, hfirst, hpending, hprocessed, hdescending⟩ := h
  simp only [hperm.mem_iff] at hpending hprocessed
  exact ⟨hgroups.trans hperm, hnonempty, hsorted, hfirst, hpending, hprocessed, hdescending⟩

/-- The list shows every pending or processed transaction of the selected wallet once, and the
order it is made with is a strict total order on what is loaded. -/
theorem grouppedTransactions_shows (kit : TextKit) (repository : Repository) (store : Store)
    (now : Date) {txs : List Transaction} (hall : all kit repository now = .ok txs)
    (hmono : Monotone dateForGrouping) :
    StrictTotalOn areInIncreasingOrder txs ∧
    ∃ groups, grouppedTransactions kit repository store now dateForGrouping = .ok groups ∧
      Shows dateForGrouping (listed store txs) groups := by
  refine ⟨strictTotalOn_all hall, ?_⟩
  have hdates : ∀ tx ∈ inOrder store txs, tx.allEventDates ≠ [] := by
    intro tx htx hnil
    obtain ⟨date, hdate⟩ := exists_date hall store htx
    rw [hnil] at hdate
    cases hdate
  have hruns := Grouping.grouped_foldl
    ((pairwise_day hall store hmono).sublist
      (List.filter_sublist (p := fun tx : Transaction => decide (tx.status ≠ .pending))))
  have hshows := shows_of_grouped (fun tx htx => exists_date hall store htx)
    (inOrder_strict hall store) hruns
  refine ⟨_, ?_, hshows.of_perm (inOrder_perm store txs)⟩
  have hloop := foldlM_round dateForGrouping (inOrder store txs) hdates [] []
  rw [List.map_nil, List.nil_append] at hloop
  have hkept := filter_eq_shownGroups ((inOrder store txs).filter (·.status = .pending))
    fun run hrun => (hruns.keyed run hrun).1
  simp only [grouppedTransactions, allTransactions, hall, hloop, Trapping.ok_bind,
    Trapping.pure_eq_ok, hkept]

/-- The days of a calendar without time zones. -/
def utcDay (date : Date) : Date := date / 86400000 * 86400000

/-- A transaction of the wallet `W` with the status and the time of its last event. -/
def sampleTransaction (id : TransactionID) (status : TransactionStatus) (date : Date) :
    Transaction :=
  { Transaction.toItself id .transfer "W" Address.zero status "0x01" with
    createdDate := some date
    updatedDate := some date
    submittedDate := some date
    processedDate := if status = .pending then none else some date }

/-- The wallet `W` is selected. -/
def selectedStore : Store :=
  { Store.ofWallets Table.empty Table.empty with portfolio := some ⟨["W"], some "W"⟩ }

/-- A pending transaction between two days with processed ones. -/
def sampleTransactions : List Transaction :=
  [sampleTransaction "A" .success 1000, sampleTransaction "B" .pending 90000000,
    sampleTransaction "C" .failed 100000000]

def twoDays : Repository :=
  sampleTransactions.foldl (fun repository tx => save tx repository) Table.empty

theorem grouppedTransactions_shows_twoDays :
    (listed selectedStore sampleTransactions).length = 3 ∧
      ∃ groups, grouppedTransactions marks twoDays selectedStore 200000000 utcDay = .ok groups ∧
        Shows utcDay (listed selectedStore sampleTransactions) groups := by
  have hmono : Monotone utcDay := fun first second hle =>
    Nat.mul_le_mul_right _ (Nat.div_le_div_right hle)
  have hall : all marks twoDays 200000000 = .ok sampleTransactions := by decide +kernel
  exact ⟨by decide,
    (grouppedTransactions_shows marks twoDays selectedStore 200000000 hall hmono).2⟩

end TransactionDomainService

end SafeWallet
