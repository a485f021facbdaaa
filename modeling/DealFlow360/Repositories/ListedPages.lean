import DealFlow360.Repositories.Query
import DealFlow360.Search.Providers
import Mathlib.Order.Defs.LinearOrder

/-!
# Pages of listed rows

`NotificationRepository.listForUser` and `SearchRepository.search` answer a
page with `skip` and `take` of an `ORDER BY` that does not tell all rows apart:
the former sorts by one time, the latter by the sorts of the query and the time
of creation. Each query may put rows that the `ORDER BY` does not tell apart in
another order.

The database's freedom is a parameter: for each query a list of the selected
rows that is in the order of the clause. `Lib.Paging` says when pages cut from
such lists are a partition in every case (`pages_perm_iff`); `partition_iff`
adds that rows are told apart by their keys. The two repositories are then
instances, with their own orders and keys.

- `listed_once_iff`: for both, every row is listed once exactly when rows the
  clause does not tell apart are on one page;
- `listed_twice`: two notifications of one millisecond.
-/

namespace DealFlow360.Repositories

open Paging Search

/-! ## Orders -/

/-- A column, ascending or descending. -/
def directed {α : Type*} (descending : Bool) (cmp : α → α → Ordering) : α → α → Ordering :=
  if descending then fun a b => cmp b a else cmp

instance {α : Type*} (descending : Bool) (cmp : α → α → Ordering) [Std.TransCmp cmp] :
    Std.TransCmp (directed descending cmp) := by
  cases descending with
  | false => exact ‹Std.TransCmp cmp›
  | true => exact inferInstanceAs (Std.TransCmp fun a b => cmp b a)

/-! ## Notifications -/

structure Notification where
  id : Id
  userId : Id
  readAt : Option Timestamp := none
  createdAt : Timestamp
  updatedAt : Timestamp
  deriving DecidableEq, Repr

structure NotificationTable where
  rows : List Notification
  distinct : (rows.map Notification.id).Nodup

structure NotificationListInput where
  userId : Id
  unreadOnly : Bool := false
  pagination : PaginationInput := {}
  sort : SortInput := {}
  deriving DecidableEq, Repr

def notificationSortFields : List String := ["createdAt", "updatedAt"]

/-- `toPrismaOrderBy`, as the database compares rows by it. -/
def notificationOrder (sort : ParsedSort) : Notification → Notification → Ordering :=
  directed (sort.order = .desc)
    (if sort.field = "updatedAt" then compareOn Notification.updatedAt else compareOn Notification.createdAt)

/-- The rows of the `where`. -/
def NotificationTable.selected (table : NotificationTable) (input : NotificationListInput) : List Notification :=
  table.rows.filter fun row => row.userId = input.userId && (!input.unreadOnly || row.readAt = none)

/-- `listForUser`, where `database` is how this query's rows are ordered. -/
def NotificationTable.listForUser (table : NotificationTable) (database : ParsedSort → List Notification)
    (input : NotificationListInput) : Except QueryError (PaginatedResult Notification) := do
  let pagination ← parsePagination input.pagination
  let sort ← parseSort input.sort notificationSortFields "createdAt" .desc
  return toPaginatedResult (((database sort).drop pagination.skip).take pagination.take) pagination
    (table.selected input).length

def NotificationListInput.atPage (input : NotificationListInput) (page : ℕ) : NotificationListInput :=
  { input with pagination := { input.pagination with page := some (page : ℕ) } }

/-! ## Search documents -/

structure SearchTable where
  rows : List StoredSearchDocument
  distinct : (rows.map fun row => (row.indexName, row.documentId)).Nodup

/-- A query but for its page: the clauses and the selected columns do not depend on `skip` and `take`. -/
def unpaged (query : ProviderSearchQuery) : ProviderSearchQuery := { query with skip := 0, take := 0 }

/-- What the database makes of the clauses of a query. -/
structure SearchColumns (κ : Type) where
  matchesRow : ProviderSearchQuery → StoredSearchDocument → Bool
  score : ProviderSearchQuery → StoredSearchDocument → Num
  highlight : ProviderSearchQuery → StoredSearchDocument → Option (List String)
  collapse : String → Option String
  /-- `d.title` and `d.filters ->> field` in the order of the collation, with NULL above every text. -/
  text : String → StoredSearchDocument → κ

variable {κ : Type} [Ord κ] [Std.TransOrd κ]

omit [Std.TransOrd κ] in
/-- How the database compares rows by one column. -/
def SearchColumns.column (columns : SearchColumns κ) (query : ProviderSearchQuery) (field : String) :
    StoredSearchDocument → StoredSearchDocument → Ordering :=
  if field = "_score" then compareOn (columns.score (unpaged query))
  else if field = "createdAt" then compareOn StoredSearchDocument.createdAt
  else if field = "updatedAt" then compareOn StoredSearchDocument.updatedAt
  else compareOn (columns.text field)

instance (columns : SearchColumns κ) (query : ProviderSearchQuery) (field : String) :
    Std.TransCmp (columns.column query field) := by
  unfold SearchColumns.column
  split
  · infer_instance
  · split
    · infer_instance
    · split <;> infer_instance

/-- `buildOrder`, as the database compares rows by it. -/
def SearchColumns.buildOrder (columns : SearchColumns κ) (query : ProviderSearchQuery) :
    StoredSearchDocument → StoredSearchDocument → Ordering :=
  let sorts := if query.sort = [] then [{ field := "_score", order := .desc }] else query.sort
  sorts.foldr (fun sort rest => compareLex (directed (sort.order = .desc) (columns.column query sort.field)) rest)
    (directed true (compareOn StoredSearchDocument.createdAt))

instance (columns : SearchColumns κ) (query : ProviderSearchQuery) : Std.TransCmp (columns.buildOrder query) := by
  unfold SearchColumns.buildOrder
  dsimp only
  generalize (if query.sort = [] then _ else query.sort) = sorts
  induction sorts with
  | nil => exact inferInstanceAs (Std.TransCmp (directed true _))
  | cons sort sorts ih => exact inferInstanceAs (Std.TransCmp (compareLex _ _))

omit [Std.TransOrd κ] [Ord κ] in
/-- The clauses of a query, with the order in which its rows come. -/
def SearchColumns.sql (columns : SearchColumns κ) (ordered : List StoredSearchDocument) : SearchSql where
  matchesRow query := columns.matchesRow (unpaged query)
  order _ _ := ordered
  score query := columns.score (unpaged query)
  highlight query := columns.highlight (unpaged query)
  collapse := columns.collapse

omit [Std.TransOrd κ] [Ord κ] in
/-- The rows of the `WHERE`. -/
def SearchColumns.selected (columns : SearchColumns κ) (table : SearchTable) (query : ProviderSearchQuery) :
    List StoredSearchDocument :=
  (table.rows.filter fun record => query.indexes.contains record.indexName && visibleToActor record query).filter
    (columns.matchesRow (unpaged query))

omit [Std.TransOrd κ] [Ord κ] in
/-- `SearchRepository.search`, where `database` is how this query's rows are ordered. -/
def SearchColumns.search (columns : SearchColumns κ) (table : SearchTable) (database : List StoredSearchDocument)
    (query : ProviderSearchQuery) : ProviderSearchResult :=
  sqlRank (columns.sql database) query
    (table.rows.filter fun record => query.indexes.contains record.indexName && visibleToActor record query)

omit [Std.TransOrd κ] [Ord κ] in
/-- A page of a search, as the service asks for it and answers. -/
def SearchColumns.searchPage (columns : SearchColumns κ) (table : SearchTable) (database : List StoredSearchDocument)
    (query : ProviderSearchQuery) (input : PaginationInput) : Except QueryError (PaginatedResult SearchHit) := do
  let pagination ← parsePagination input
  let result := columns.search table database { query with skip := pagination.skip, take := pagination.take }
  return toPaginatedResult result.hits pagination result.totalItems

/-! ## Pages of one query -/

/-- The answers to the pages from the first to the last hold each of the keys once, and of them exactly the last one
has no next page. -/
structure Partition {α ι : Type} (key : α → ι) (keys : List ι) (pageSize : ℕ) (answer : ℕ → PaginatedResult α) :
    Prop where
  once : ((List.range (pageCount pageSize keys.length)).flatMap fun j => (answer (j + 1)).items.map key).Perm keys
  last : ∀ page, 0 < page → page ≤ pageCount pageSize keys.length →
    ((answer page).meta.hasNextPage = false ↔ page = pageCount pageSize keys.length)

section Answers

variable {ρ α ι : Type} {rows : List ρ} {hit : ρ → α} {pageSize : ℕ} {answer : ℕ → PaginatedResult α}

/-- Rows of distinct keys are each there once if their keys are. -/
theorem perm_of_keys {key : α → ι} {found : List ρ} (hrows : (rows.map (key ∘ hit)).Nodup)
    (hmem : ∀ x ∈ found, x ∈ rows) :
    (found.map (key ∘ hit)).Perm (rows.map (key ∘ hit)) ↔ found.Perm rows := by
  refine ⟨fun h => ?_, fun h => h.map _⟩
  have hinj := List.inj_on_of_nodup_map hrows
  refine (List.perm_ext_iff_of_nodup ((h.nodup_iff.mpr hrows).of_map) hrows.of_map).mpr fun x => ?_
  refine ⟨hmem x, fun hx => ?_⟩
  obtain ⟨y, hy, hkey⟩ := List.mem_map.mp (h.mem_iff.mpr (List.mem_map_of_mem hx))
  rw [← hinj (hmem y hy) hx hkey]
  exact hy

/-- Where each answer is a page of its own list of the rows, they are a partition if the pages are. -/
theorem partition_iff (key : α → ι) (lists : ℕ → List ρ) (hsize : 0 < pageSize) (hrows : (rows.map (key ∘ hit)).Nodup)
    (hlists : ∀ page, (lists page).Perm rows)
    (hanswer : ∀ page, 0 < page → answer page = toPaginatedResult
      ((((lists page).drop ((page - 1) * pageSize)).take pageSize).map hit)
      { page, pageSize, skip := (page - 1) * pageSize, take := pageSize } rows.length) :
    Partition key (rows.map (key ∘ hit)) pageSize answer ↔
      (pages pageSize (fun j => lists (j + 1)) (pageCount pageSize rows.length)).Perm rows := by
  have hitems (j : ℕ) : (answer (j + 1)).items.map key = (page pageSize (lists (j + 1)) j).map (key ∘ hit) := by
    rw [hanswer (j + 1) (Nat.succ_pos j)]
    unfold toPaginatedResult page
    dsimp only
    rw [List.map_map, Nat.add_sub_cancel]
  have honce : ((List.range (pageCount pageSize rows.length)).flatMap fun j => (answer (j + 1)).items.map key) =
      (pages pageSize (fun j => lists (j + 1)) (pageCount pageSize rows.length)).map (key ∘ hit) := by
    unfold pages
    rw [List.map_flatMap]
    exact congrArg (fun f => List.flatMap f (List.range _)) (funext hitems)
  have hmem : ∀ x ∈ pages pageSize (fun j => lists (j + 1)) (pageCount pageSize rows.length), x ∈ rows := by
    intro x hx
    obtain ⟨j, -, hx⟩ := List.mem_flatMap.mp hx
    exact (hlists _).mem_iff.mp (mem_of_mem_page hx)
  constructor
  · intro h
    have hperm := h.once
    rw [List.length_map, honce] at hperm
    exact (perm_of_keys hrows hmem).mp hperm
  · intro h
    refine ⟨?_, fun page hpos hpage => ?_⟩
    · rw [List.length_map, honce]
      exact (perm_of_keys hrows hmem).mpr h
    · rw [List.length_map] at hpage ⊢
      rw [hanswer page hpos]
      unfold toPaginatedResult
      dsimp only
      rw [← totalPages_eq { page, pageSize, skip := (page - 1) * pageSize, take := pageSize } hsize] at hpage ⊢
      exact hasNextPage_eq_false hpage

end Answers

/-! ## When every row is listed once -/

/-- However the database orders the rows for each page, the pages of `listForUser` are a partition of them. -/
def NotificationTable.PagesPartition (table : NotificationTable) (input : NotificationListInput)
    (params : PaginationParams) (sort : ParsedSort) : Prop :=
  ∀ database : ℕ → ParsedSort → List Notification,
    (∀ page, OrderOf (notificationOrder sort) (table.selected input) (database page sort)) →
    ∃ answer : ℕ → PaginatedResult Notification,
      (∀ page, 0 < page → table.listForUser (database page) (input.atPage page) = .ok (answer page)) ∧
        Partition Notification.id ((table.selected input).map Notification.id) params.pageSize answer

instance (sort : ParsedSort) : Std.TransCmp (notificationOrder sort) := by
  unfold notificationOrder
  split <;> infer_instance

theorem listForUser_partition_iff (table : NotificationTable) {input : NotificationListInput}
    {params : PaginationParams} {sort : ParsedSort} (hparams : parsePagination input.pagination = .ok params)
    (hsort : parseSort input.sort notificationSortFields "createdAt" .desc = .ok sort) :
    table.PagesPartition input params sort ↔
      TiesOnOnePage (notificationOrder sort) params.pageSize (table.selected input) := by
  obtain ⟨hsize, hpages⟩ := parsePagination_eq_ok hparams
  have hkeys : ((table.selected input).map (Notification.id ∘ id)).Nodup :=
    table.distinct.sublist ((List.filter_sublist).map _)
  have hanswer (database : ℕ → ParsedSort → List Notification) (page : ℕ) (hpage : 0 < page) :
      table.listForUser (database page) (input.atPage page) = .ok (toPaginatedResult
        ((((database page sort).drop ((page - 1) * params.pageSize)).take params.pageSize).map id)
        { page, pageSize := params.pageSize, skip := (page - 1) * params.pageSize, take := params.pageSize }
        (table.selected input).length) := by
    unfold NotificationTable.listForUser NotificationListInput.atPage
    dsimp only
    rw [hpages page hpage, hsort, List.map_id]
    rfl
  rw [← pages_perm_iff hsize hkeys.of_map]
  constructor
  · intro h lists hlists
    obtain ⟨answer, hok, hpartition⟩ := h (fun page _ => lists (page - 1)) fun page => hlists (page - 1)
    exact (partition_iff Notification.id (fun page => lists (page - 1)) hsize hkeys
      (fun page => (hlists (page - 1)).perm)
      fun page hpage => Except.ok.inj ((hok page hpage).symm.trans
        (hanswer (fun page _ => lists (page - 1)) page hpage))).mp hpartition
  · intro h database hdatabase
    refine ⟨_, hanswer database, ?_⟩
    exact (partition_iff Notification.id (fun page => database page sort) hsize hkeys
      (fun page => (hdatabase page).perm)
      fun page _ => rfl).mpr (h (fun j => database (j + 1) sort) fun j => hdatabase (j + 1))

/-- However the database orders the rows for each page, the pages of a search are a partition of them. -/
def SearchColumns.PagesPartition (columns : SearchColumns κ) (table : SearchTable) (query : ProviderSearchQuery)
    (input : PaginationInput) (params : PaginationParams) : Prop :=
  ∀ database : ℕ → List StoredSearchDocument,
    (∀ page, OrderOf (columns.buildOrder query) (columns.selected table query) (database page)) →
    ∃ answer : ℕ → PaginatedResult SearchHit,
      (∀ page, 0 < page → columns.searchPage table (database page) query { input with page := some (page : ℕ) } =
          .ok (answer page)) ∧
        Partition (fun hit => (hit.index, hit.documentId))
          ((columns.selected table query).map fun row => (row.indexName, row.documentId)) params.pageSize answer

omit [Std.TransOrd κ] [Ord κ] in
/-- `toHit`, of the columns that are selected. -/
def SearchColumns.hit (columns : SearchColumns κ) (query : ProviderSearchQuery) (row : StoredSearchDocument) :
    SearchHit where
  index := row.indexName
  documentId := row.documentId
  title := row.title
  snippet := columns.collapse row.body
  score := round (columns.score (unpaged query) row) 4
  fields := row.payload
  highlights := columns.highlight (unpaged query) row

theorem search_partition_iff (columns : SearchColumns κ) (table : SearchTable) (query : ProviderSearchQuery)
    {input : PaginationInput} {params : PaginationParams} (hparams : parsePagination input = .ok params) :
    columns.PagesPartition table query input params ↔
      TiesOnOnePage (columns.buildOrder query) params.pageSize (columns.selected table query) := by
  obtain ⟨hsize, hpages⟩ := parsePagination_eq_ok hparams
  let key : SearchHit → String × String := fun hit => (hit.index, hit.documentId)
  have hkeys : ((columns.selected table query).map (key ∘ columns.hit query)).Nodup :=
    table.distinct.sublist ((List.filter_sublist.trans List.filter_sublist).map _)
  have hanswer (database : ℕ → List StoredSearchDocument) (page : ℕ) (hpage : 0 < page) :
      columns.searchPage table (database page) query { input with page := some (page : ℕ) } = .ok (toPaginatedResult
        ((((database page).drop ((page - 1) * params.pageSize)).take params.pageSize).map (columns.hit query))
        { page, pageSize := params.pageSize, skip := (page - 1) * params.pageSize, take := params.pageSize }
        (columns.selected table query).length) := by
    unfold SearchColumns.searchPage
    rw [hpages page hpage]
    rfl
  rw [← pages_perm_iff hsize hkeys.of_map]
  constructor
  · intro h lists hlists
    obtain ⟨answer, hok, hpartition⟩ := h (fun page => lists (page - 1)) fun page => hlists (page - 1)
    exact (partition_iff key (fun page => lists (page - 1)) hsize hkeys
      (fun page => (hlists (page - 1)).perm) fun page hpage => Except.ok.inj ((hok page hpage).symm.trans
        (hanswer (fun page => lists (page - 1)) page hpage))).mp hpartition
  · intro h database hdatabase
    refine ⟨_, hanswer database, ?_⟩
    exact (partition_iff key database hsize hkeys (fun page => (hdatabase page).perm)
      fun page _ => rfl).mpr (h (fun j => database (j + 1)) fun j => hdatabase (j + 1))

/-- For every table, sort and page size, the pages of the notifications and those of a search list every row once
exactly where no page ends between two rows that the `ORDER BY` does not tell apart. -/
theorem listed_once_iff :
    (∀ (table : NotificationTable) (input : NotificationListInput) (params : PaginationParams) (sort : ParsedSort),
        parsePagination input.pagination = .ok params →
        parseSort input.sort notificationSortFields "createdAt" .desc = .ok sort →
        (table.PagesPartition input params sort ↔
          TiesOnOnePage (notificationOrder sort) params.pageSize (table.selected input))) ∧
      ∀ (columns : SearchColumns κ) (table : SearchTable) (query : ProviderSearchQuery) (input : PaginationInput)
        (params : PaginationParams), parsePagination input = .ok params →
        (columns.PagesPartition table query input params ↔
          TiesOnOnePage (columns.buildOrder query) params.pageSize (columns.selected table query)) :=
  ⟨fun table _ _ _ hparams hsort => listForUser_partition_iff table hparams hsort,
    fun columns table query _ _ hparams => search_partition_iff columns table query hparams⟩

/-- Two notifications of one user. -/
def twoNotifications (first second : Timestamp) : NotificationTable where
  rows := [{ id := 1, userId := 7, createdAt := first, updatedAt := first },
    { id := 2, userId := 7, createdAt := second, updatedAt := second }]
  distinct := by simp

def onePerPage : NotificationListInput where
  userId := 7
  pagination := { pageSize := some 1 }

/-- Two documents of an index that all users share. -/
def twoDocuments (first second : Timestamp) : SearchTable where
  rows := [("a", first), ("b", second)].map fun (documentId, createdAt) =>
    { id := createdAt
      indexName := "docs"
      documentId
      title := ""
      body := ""
      keywords := []
      payload := []
      filters := []
      ownerId := none
      createdAt
      updatedAt := createdAt }
  distinct := by simp

/-- Every row matches, all of them alike. -/
def alikeColumns : SearchColumns ℕ where
  matchesRow _ _ := true
  score _ _ := 0
  highlight _ _ := none
  collapse := some
  text _ _ := 0

/-- A search without sorts: by score, the newest first of one score. -/
def sharedQuery : ProviderSearchQuery where
  indexes := ["docs"]
  sharedIndexes := ["docs"]
  scopedIndexes := []
  ownerId := 7
  query := "deal"
  tokens := ["deal"]
  mode := .fulltext
  filters := []
  sort := []
  skip := 0
  take := 1
  highlight := false

/-- What was created at two times is on two pages, of notifications as of a search. -/
theorem listed_once_at_two_times :
    (twoNotifications 5 6).PagesPartition onePerPage { page := 1, pageSize := 1, skip := 0, take := 1 }
        { field := "createdAt", order := .desc } ∧
      alikeColumns.PagesPartition (twoDocuments 5 6) sharedQuery { pageSize := some 1 }
        { page := 1, pageSize := 1, skip := 0, take := 1 } := by
  constructor
  · refine ((listed_once_iff (κ := ℕ)).1 (twoNotifications 5 6) onePerPage _ _ (by decide) (by decide)).mpr ?_
    unfold TiesOnOnePage
    decide
  · refine (listed_once_iff.2 alikeColumns (twoDocuments 5 6) sharedQuery { pageSize := some 1 } _ (by decide)).mpr ?_
    unfold TiesOnOnePage
    decide +kernel

/-- Of two notifications of the same millisecond, one may be on both pages and the other on none. -/
theorem listed_twice :
    ¬∀ (table : NotificationTable) (input : NotificationListInput) (params : PaginationParams) (sort : ParsedSort),
      parsePagination input.pagination = .ok params →
      parseSort input.sort notificationSortFields "createdAt" .desc = .ok sort →
      table.PagesPartition input params sort := by
  intro h
  have hparams : parsePagination onePerPage.pagination = .ok { page := 1, pageSize := 1, skip := 0, take := 1 } := by
    decide
  have hsort : parseSort onePerPage.sort notificationSortFields "createdAt" .desc =
      .ok { field := "createdAt", order := .desc } := by decide
  have hties := (listForUser_partition_iff (twoNotifications 5 5) hparams hsort).mp
    (h (twoNotifications 5 5) onePerPage _ _ hparams hsort)
  revert hties
  unfold TiesOnOnePage
  decide

end DealFlow360.Repositories
