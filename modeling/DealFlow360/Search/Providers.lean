import DealFlow360.Search.SearchService

/-!
# Search providers

The in-memory provider and the Postgres provider. The former keeps documents
under a text of index and id, in the order of first insertion; the latter
updates the row of its unique key, which keeps its id and its creation time.
Scores, highlights and snippets, and what the database makes of a query, are
parameters.

The two differ in what an index call leaves of the row it writes over, and in
how a result is ranked: in memory by score and insertion, in the database by
the order of its clauses. What a query is made of comes from the service; a
provider filters by index and owner, then by the filters, ranks, and cuts the
page.
-/

namespace DealFlow360.Search

/-! ## In memory -/

/-- What a sort compares. -/
inductive SortValue where
  | score (value : Num)
  | time (value : Timestamp)
  | scalar (value : JsonScalar)
  | missing
  deriving DecidableEq, Repr

/-- What the provider makes of texts, and `>` on two values. -/
structure TextMatching where
  toLowerCase : String → String
  scoreRecord : StoredSearchDocument → ProviderSearchQuery → Num
  highlightSnippets : StoredSearchDocument → ProviderSearchQuery → Option (List String)
  collapse : String → Option String
  greater : SortValue → SortValue → Bool

variable (text : TextMatching)

/-- `String.prototype.includes`. -/
def includes (haystack needle : String) : Bool :=
  haystack.toList.tails.any fun tail => needle.toList.isPrefixOf tail

def matchesFilter (actual : Option JsonScalar) (operator : FilterOperator) (expected : FilterValue) : Bool :=
  match actual with
  | none => false
  | some actual =>
      match operator, expected with
      | .eq, .scalar value => actual = value
      | .eq, .list _ => false
      | .neq, .scalar value => actual ≠ value
      | .neq, .list _ => true
      | .in, .list values => values.contains actual
      | .in, .scalar _ => false
      | .contains, .scalar (.string value) =>
          match actual with
          | .string content => includes (text.toLowerCase content) (text.toLowerCase value)
          | _ => false
      | .gte, .scalar (.number value) =>
          match actual with
          | .number content => value ≤ content
          | _ => false
      | .lte, .scalar (.number value) =>
          match actual with
          | .number content => content ≤ value
          | _ => false
      | _, _ => false

def matchesFilters (filters : List (String × JsonScalar)) (rules : List SearchFilter) : Bool :=
  rules.all fun rule => matchesFilter text (filters.lookup rule.field) rule.operator rule.value

def sortValue (item : StoredSearchDocument × Num) (field : String) : SortValue :=
  if field = "_score" then .score item.2
  else if field = "createdAt" then .time item.1.createdAt
  else if field = "updatedAt" then .time item.1.updatedAt
  else if field = "title" then .scalar (.string (text.toLowerCase item.1.title))
  else
    match item.1.filters.lookup field with
    | none | some .null => ((item.1.payload.lookup field).map SortValue.scalar).getD .missing
    | some value => .scalar value

def compareSort (left right : StoredSearchDocument × Num) (sort : SearchSort) : Num :=
  let direction : Num := if sort.order = .asc then 1 else -1
  let leftValue := sortValue text left sort.field
  let rightValue := sortValue text right sort.field
  if leftValue = rightValue then 0
  else if leftValue = .missing ∨ leftValue = .scalar .null then 1
  else if rightValue = .missing ∨ rightValue = .scalar .null then -1
  else if text.greater leftValue rightValue then direction
  else if text.greater rightValue leftValue then -direction
  else 0

/-- The first sort that tells them apart, or the newer first. -/
def compareMatches (sorts : List SearchSort) (left right : StoredSearchDocument × Num) : Num :=
  match (sorts.map (compareSort text left right)).find? fun compared => compared ≠ 0 with
  | some compared => compared
  | none => (right.1.createdAt : Num) - left.1.createdAt

def toHit (query : ProviderSearchQuery) (item : StoredSearchDocument × Num) : SearchHit where
  index := item.1.indexName
  documentId := item.1.documentId
  title := item.1.title
  snippet := text.collapse item.1.body
  score := round item.2 4
  fields := item.1.payload
  highlights := if query.highlight then text.highlightSnippets item.1 query else none

def memoryRank (query : ProviderSearchQuery) (documents : List StoredSearchDocument) : ProviderSearchResult :=
  let matched := documents.filterMap fun record =>
    let score := text.scoreRecord record query
    if ¬ matchesFilters text record.filters query.filters then none
    else if query.mode ≠ .browse ∧ score ≤ 0 then none
    else some (record, score)
  let sorts := if query.sort = [] then [{ field := "_score", order := .desc }] else query.sort
  let page := ((sortBy (compareMatches text sorts) matched).drop query.skip).take query.take
  { hits := page.map (toHit text query), totalItems := matched.length }

def memoryKey (indexName documentId : String) : String := indexName ++ ":" ++ documentId

/-- `createMemorySearchProvider`. -/
def memorySearchProvider : SearchProvider String where
  key := memoryKey
  write _ document := document
  rank := memoryRank text
  write_keeps _ _ := ⟨rfl, rfl, rfl⟩

/-! ## In the database -/

/-- What the database makes of the clauses of a query: which rows match, in which order they come, and what is
selected with them. -/
structure SearchSql where
  matchesRow : ProviderSearchQuery → StoredSearchDocument → Bool
  order : ProviderSearchQuery → List StoredSearchDocument → List StoredSearchDocument
  score : ProviderSearchQuery → StoredSearchDocument → Num
  highlight : ProviderSearchQuery → StoredSearchDocument → Option (List String)
  collapse : String → Option String

variable (sql : SearchSql)

def sqlRank (query : ProviderSearchQuery) (documents : List StoredSearchDocument) : ProviderSearchResult :=
  let rows := documents.filter (sql.matchesRow query)
  let page := ((sql.order query rows).drop query.skip).take query.take
  { hits := page.map fun row =>
      { index := row.indexName
        documentId := row.documentId
        title := row.title
        snippet := sql.collapse row.body
        score := round (sql.score query row) 4
        fields := row.payload
        highlights := sql.highlight query row }
    totalItems := rows.length }

/-- An update leaves id and creation time. -/
def updateRow (old : Option StoredSearchDocument) (document : StoredSearchDocument) : StoredSearchDocument :=
  match old with
  | none => document
  | some row => { document with id := row.id, createdAt := row.createdAt }

/-- `createPostgresSearchProvider`. -/
def postgresSearchProvider : SearchProvider (String × String) where
  key indexName documentId := (indexName, documentId)
  write := updateRow
  rank := sqlRank sql
  write_keeps old document := by
    cases old with
    | none => exact ⟨rfl, rfl, rfl⟩
    | some row => exact ⟨rfl, rfl, rfl⟩

end DealFlow360.Search
