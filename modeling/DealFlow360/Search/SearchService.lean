import DealFlow360.Js
import DealFlow360.Lib.Table

/-!
# The search service

`search`, `index` and `delete` over the registered indexes and a provider. A
provider stores a document under a key of its index and its id, and ranks the
documents that a query may see. The text functions of a query are parameters;
audit and the demo documents are left out.

`toStoredDocument` trims the id that was given and draws one where there is
none, collects the keywords, cut in UTF-16 units, and stamps the times. The
index registry says which indexes are shared and which are scoped by owner; a
query for both is sent to the provider with the two lists apart. Errors are
those of the checks, in their order.
-/

namespace DealFlow360.Search

/-! ## Indexes -/

inductive SearchFieldType where
  | text | keyword | number | boolean | date
  deriving DecidableEq, Repr

inductive SearchFieldRole where
  | title | body | keyword | filter
  deriving DecidableEq, Repr

structure SearchIndexField where
  type : SearchFieldType
  searchable : Bool := false
  filterable : Bool := false
  sortable : Bool := false
  role : Option SearchFieldRole := none
  deriving DecidableEq, Repr

inductive SortOrder where
  | asc | desc
  deriving DecidableEq, Repr

structure SearchSort where
  field : String
  order : SortOrder
  deriving DecidableEq, Repr

structure SearchIndexDefinition where
  name : String
  permission : String
  writePermission : Option String := none
  ownerScoped : Bool := false
  httpWritable : Bool := false
  fields : List (String × SearchIndexField)
  defaultSort : Option SearchSort := none
  deriving DecidableEq, Repr

structure SearchActor where
  id : Id
  permissions : List String
  deriving DecidableEq, Repr

/-! ## Documents and queries -/

structure SearchDocumentInput where
  index : String
  documentId : Option String := none
  title : Option String := none
  body : Option String := none
  fields : List (String × JsonScalar) := []
  ownerId : Option Id := none
  deriving DecidableEq, Repr

structure StoredSearchDocument where
  id : Id
  indexName : String
  documentId : String
  title : String
  body : String
  /-- As code units, of which the last may be half a character. -/
  keywords : List ℕ
  payload : List (String × JsonScalar)
  filters : List (String × JsonScalar)
  ownerId : Option Id
  createdAt : Timestamp
  updatedAt : Timestamp
  deriving DecidableEq, Repr

/-- What the two calls of `randomUUID` give an index call: the id of its record, and that of a document without
one. -/
structure DrawnIds where
  id : Id
  documentId : String
  deriving DecidableEq, Repr

def DrawnIds.documentIdOr (drawn : DrawnIds) (documentId : String) : String :=
  if documentId = "" then drawn.documentId else documentId

inductive FilterOperator where
  | eq | neq | contains | «in» | gte | lte
  deriving DecidableEq, Repr

inductive FilterValue where
  | scalar (value : JsonScalar)
  | list (values : List JsonScalar)
  deriving DecidableEq, Repr

structure SearchFilter where
  field : String
  operator : FilterOperator
  value : FilterValue
  deriving DecidableEq, Repr

inductive SearchMode where
  | browse | keyword | fulltext | fuzzy
  deriving DecidableEq, Repr

structure ProviderSearchQuery where
  indexes : List String
  sharedIndexes : List String
  scopedIndexes : List String
  ownerId : Id
  query : String
  tokens : List String
  mode : SearchMode
  filters : List SearchFilter
  sort : List SearchSort
  skip : ℕ
  take : ℕ
  highlight : Bool
  deriving DecidableEq, Repr

structure SearchHit where
  index : String
  documentId : String
  title : String
  snippet : Option String
  score : Num
  fields : List (String × JsonScalar)
  highlights : Option (List String)
  deriving DecidableEq, Repr

structure ProviderSearchResult where
  hits : List SearchHit
  totalItems : ℕ
  deriving DecidableEq, Repr

/-- What a query may see of its indexes: the shared ones whole, of the others what is the actor's or nobody's. -/
def visibleToActor (record : StoredSearchDocument) (query : ProviderSearchQuery) : Bool :=
  query.sharedIndexes.contains record.indexName || !query.scopedIndexes.contains record.indexName ||
    decide (record.ownerId = none ∨ record.ownerId = some query.ownerId)

/-- A provider of the repository. `write` is what is stored over what the key held. -/
structure SearchProvider (κ : Type) [DecidableEq κ] where
  key : String → String → κ
  write : Option StoredSearchDocument → StoredSearchDocument → StoredSearchDocument
  rank : ProviderSearchQuery → List StoredSearchDocument → ProviderSearchResult
  write_keeps : ∀ old document, (write old document).indexName = document.indexName ∧
    (write old document).documentId = document.documentId ∧ (write old document).ownerId = document.ownerId

/-! ## The service -/

inductive SearchError where
  | featureDisabled
  | unknownIndex (index : String)
  | noIndex
  | missingPermission (permission : String)
  | notWritable (index : String)
  | emptyDocument
  | unknownFilterField (field : String)
  | unknownSortField (field : String)
  deriving DecidableEq, Repr

structure SearchQueryInput where
  query : String := ""
  index : Option (List String) := none
  mode : Option SearchMode := none
  filters : List SearchFilter := []
  sort : List SearchSort := []
  page : ℕ := 1
  pageSize : ℕ := 20
  highlight : Bool := true
  actor : SearchActor
  deriving DecidableEq, Repr

structure SearchResult where
  mode : SearchMode
  fallbackFrom : Option SearchMode
  query : String
  indexes : List String
  hits : List SearchHit
  totalItems : ℕ
  deriving DecidableEq, Repr

/-- `registry` as `list` gives it. -/
structure SearchService (κ : Type) [DecidableEq κ] where
  provider : SearchProvider κ
  registry : List SearchIndexDefinition
  enabled : Bool := true
  tokenizeQuery : String → List String
  resolveMode : Option SearchMode → String → List String → SearchMode
  shouldAttemptFuzzy : String → List String → Bool
  maxKeywordsChars : ℕ := 2000

def hasPermission (actor : SearchActor) (permission : String) : Bool :=
  actor.permissions.contains permission

namespace SearchService

variable {κ : Type} [DecidableEq κ] (service : SearchService κ)

def get (name : String) : Except SearchError SearchIndexDefinition :=
  match service.registry.find? fun definition => definition.name = name with
  | none => .error (.unknownIndex name)
  | some definition => .ok definition

def documentKey (document : StoredSearchDocument) : κ :=
  service.provider.key document.indexName document.documentId

def assertReady : Except SearchError Unit :=
  if service.enabled then .ok () else .error .featureDisabled

/-- The title, and the fields that are keywords. -/
def collectKeywords (definition : SearchIndexDefinition) (fields : List (String × JsonScalar)) (title : String) :
    List ℕ :=
  let parts := definition.fields.filterMap fun (name, field) =>
    if field.role = some .keyword ∨ field.type = .keyword ∧ field.searchable then
      match fields.lookup name with
      | some (.string value) => if trim value = "" then none else some (trim value)
      | _ => none
    else none
  (codeUnits (String.intercalate " " (title :: parts))).take service.maxKeywordsChars

def stringField (fields : List (String × JsonScalar)) (name : String) : Option String :=
  match fields.lookup name with
  | some (.string value) => some value
  | _ => none

def toStoredDocument (definition : SearchIndexDefinition) (input : SearchDocumentInput) (actor : SearchActor)
    (drawn : DrawnIds) (now : Timestamp) : Except SearchError StoredSearchDocument :=
  let title := trim ((input.title <|> stringField input.fields "title").getD "")
  let body := trim ((input.body <|> stringField input.fields "body").getD "")
  if title = "" ∧ body = "" then .error .emptyDocument
  else
    let titled := if title = "" then input.fields else Table.upsert Prod.fst ("title", .string title) input.fields
    let payload := if body = "" then titled else Table.upsert Prod.fst ("body", .string body) titled
    .ok
      { id := drawn.id
        indexName := definition.name
        documentId := drawn.documentIdOr (trim (input.documentId.getD ""))
        title
        body
        keywords := service.collectKeywords definition input.fields title
        payload
        filters := definition.fields.filterMap fun (name, field) =>
          if field.filterable then (input.fields.lookup name).map fun value => (name, value) else none
        ownerId := if definition.ownerScoped then some (input.ownerId.getD actor.id) else input.ownerId
        createdAt := now
        updatedAt := now }

def assertWrite (definition : SearchIndexDefinition) (actor : SearchActor) : Except SearchError Unit :=
  let permission := definition.writePermission.getD definition.permission
  if ¬ hasPermission actor permission then .error (.missingPermission permission)
  else if ¬ definition.httpWritable then .error (.notWritable definition.name)
  else .ok ()

/-- What an index call stores. -/
def stored (input : SearchDocumentInput) (actor : SearchActor) (drawn : DrawnIds) (now : Timestamp) :
    Except SearchError StoredSearchDocument := do
  service.assertReady
  let definition ← service.get input.index
  assertWrite definition actor
  service.toStoredDocument definition input actor drawn now

/-- Whether a delete call reaches the provider. -/
def deletes (index : String) (actor : SearchActor) : Except SearchError Unit := do
  service.assertReady
  let definition ← service.get index
  assertWrite definition actor

def resolveIndexes (requested : Option (List String)) (actor : SearchActor) :
    Except SearchError (List SearchIndexDefinition) := do
  let names := requested.getD (service.registry.map SearchIndexDefinition.name)
  if names = [] then throw .noIndex
  let indexes ← names.mapM service.get
  let denied := indexes.filter fun index => !hasPermission actor index.permission
  if denied.length = names.length then
    throw (.missingPermission ((denied.head?.map SearchIndexDefinition.permission).getD ""))
  return indexes.filter fun index => hasPermission actor index.permission

def normalizeFilters (indexes : List SearchIndexDefinition) (filters : List SearchFilter) :
    Except SearchError (List SearchFilter) :=
  let allowed := indexes.flatMap fun index => (index.fields.filter fun field => field.2.filterable).map Prod.fst
  filters.mapM fun filter =>
    if allowed.contains filter.field then .ok filter else .error (.unknownFilterField filter.field)

def builtinSortFields : List String := ["_score", "createdAt", "updatedAt", "title"]

def normalizeSort (indexes : List SearchIndexDefinition) (requested : List SearchSort) :
    Except SearchError (List SearchSort) :=
  if requested = [] then
    .ok [((indexes.head?.bind SearchIndexDefinition.defaultSort).getD { field := "_score", order := .desc })]
  else
    let sortable := builtinSortFields ++
      indexes.flatMap fun index => (index.fields.filter fun field => field.2.sortable).map Prod.fst
    requested.mapM fun item =>
      if sortable.contains item.field then .ok item else .error (.unknownSortField item.field)

/-- The query for the provider. -/
def providerQuery (input : SearchQueryInput) : Except SearchError ProviderSearchQuery := do
  service.assertReady
  let indexes ← service.resolveIndexes input.index input.actor
  let query := trim input.query
  let tokens := service.tokenizeQuery query
  let filters ← normalizeFilters indexes input.filters
  let sort ← normalizeSort indexes input.sort
  return {
    indexes := indexes.map SearchIndexDefinition.name
    sharedIndexes := (indexes.filter fun index => !index.ownerScoped).map SearchIndexDefinition.name
    scopedIndexes := (indexes.filter fun index => index.ownerScoped).map SearchIndexDefinition.name
    ownerId := input.actor.id
    query
    tokens
    mode := service.resolveMode input.mode query tokens
    filters
    sort
    skip := (input.page - 1) * input.pageSize
    take := input.pageSize
    highlight := input.highlight }

/-- The provider's search over what it stores. -/
def find (documents : List StoredSearchDocument) (query : ProviderSearchQuery) : ProviderSearchResult :=
  service.provider.rank query
    (documents.filter fun record => query.indexes.contains record.indexName && visibleToActor record query)

def search (documents : List StoredSearchDocument) (input : SearchQueryInput) : Except SearchError SearchResult := do
  let query ← service.providerQuery input
  let result := service.find documents query
  let fallsBack := input.mode = none ∧ (query.mode = .fulltext ∨ query.mode = .keyword) ∧
    result.totalItems = 0 ∧ service.shouldAttemptFuzzy query.query query.tokens = true
  let final := if fallsBack then service.find documents { query with mode := .fuzzy } else result
  return {
    mode := if fallsBack then .fuzzy else query.mode
    fallbackFrom := if fallsBack then some query.mode else none
    query := query.query
    indexes := query.indexes
    hits := final.hits
    totalItems := final.totalItems }

def index (documents : List StoredSearchDocument) (document : StoredSearchDocument) : List StoredSearchDocument :=
  let key := service.documentKey document
  Table.upsert service.documentKey
    (service.provider.write (Table.lookup service.documentKey key documents) document) documents

def delete (documents : List StoredSearchDocument) (index documentId : String) : List StoredSearchDocument :=
  Table.erase service.documentKey (service.provider.key index documentId) documents

end SearchService

/-- A call, with the clock it reads and the ids it draws. -/
inductive SearchCall where
  | index (input : SearchDocumentInput) (actor : SearchActor) (drawn : DrawnIds) (now : Timestamp)
  | delete (index documentId : String) (actor : SearchActor)
  | search (input : SearchQueryInput)
  deriving DecidableEq, Repr

/-- What a call leaves in the provider. A refused call leaves it as it is. -/
def SearchService.step {κ : Type} [DecidableEq κ] (service : SearchService κ)
    (documents : List StoredSearchDocument) : SearchCall → List StoredSearchDocument
  | .index input actor drawn now =>
      match service.stored input actor drawn now with
      | .error _ => documents
      | .ok document => service.index documents document
  | .delete index documentId actor =>
      match service.deletes index actor with
      | .error _ => documents
      | .ok _ => service.delete documents index documentId
  | .search _ => documents

end DealFlow360.Search
