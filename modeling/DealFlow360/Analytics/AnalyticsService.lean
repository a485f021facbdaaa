import DealFlow360.Analytics.MemoryProvider
import DealFlow360.Repositories.Query

/-!
# Analytics queries

`AnalyticsService.query` over the provider in memory: the checks, the window of
a query, and the page that is asked for. The demo facts, once they are there,
are facts like others.

The checks come in the order of the source, each with the error and the field
it names: the window (its ends, its length and the granularity that limits it),
the filters, the granularity, and the page. A series is padded with empty
buckets before it is cut into pages; a breakdown is cut by the provider.
`pageParams` is where the two kinds of page differ: a series never shows more
than `maxSeriesPoints` buckets on a page, whatever the page size says, while
`buildPageMeta` counts pages by the page size.
-/

namespace DealFlow360.Analytics

open Events (Text)
open Repositories (PaginationInput PaginationParams PageMeta PaginatedResult QueryError parsePagination
  toPaginatedResult)

inductive AnalyticsQueryKind where
  | snapshot | timeseries | breakdown
  deriving DecidableEq, Repr

structure AnalyticsDimensionField where
  filterable : Bool := true
  groupable : Bool := false
  deriving DecidableEq, Repr

structure AnalyticsKpiDefinition where
  name : String
  unit : Option String := none
  aggregation : AnalyticsAggregation
  permission : String
  ownerScoped : Bool := false
  dimensions : List (String × AnalyticsDimensionField)
  deriving DecidableEq, Repr

structure AnalyticsActor where
  id : Id
  permissions : List String
  deriving DecidableEq, Repr

/-- A query; `take` is for the dashboards and exports, no request over HTTP sets it. -/
structure AnalyticsQueryInput where
  kpi : String
  kind : Option AnalyticsQueryKind := none
  «from» : Option DateTime := none
  «to» : Option DateTime := none
  granularity : Option AnalyticsGranularity := none
  groupBy : Option String := none
  filters : List AnalyticsFilter := []
  page : Option Num := none
  pageSize : Option Num := none
  take : Option ℕ := none
  actor : AnalyticsActor
  deriving DecidableEq, Repr

structure AnalyticsWindow where
  «from» : DateTime
  «to» : ℤ
  deriving DecidableEq, Repr

structure AnalyticsRuntimeConfig where
  enabled : Bool
  maxRangeDays : ℕ
  maxSeriesPoints : ℕ
  deriving DecidableEq, Repr

structure AnalyticsSnapshot where
  value : Num
  samples : ℕ
  deriving DecidableEq, Repr

structure AnalyticsQueryResult where
  kind : AnalyticsQueryKind
  kpi : String
  aggregation : AnalyticsAggregation
  unit : Option String
  «from» : Text
  «to» : Text
  granularity : Option AnalyticsGranularity := none
  groupBy : Option String := none
  snapshot : Option AnalyticsSnapshot := none
  points : Option (List AnalyticsSeriesPoint) := none
  rows : Option (List AnalyticsBreakdownRow) := none
  «meta» : PageMeta
  deriving DecidableEq, Repr

inductive AnalyticsError where
  | featureDisabled
  | unknownKpi (kpi : String)
  | missingPermission (permission kpi : String)
  | invalidTimestamp (field : String)
  | fromNotEarlier («from» «to» : ℤ)
  | rangeTooLarge (maxDays : ℕ) (granularity : AnalyticsGranularity)
  | unknownFilterField (field : String) (allowed : List String)
  | inRequiresArray (field : String)
  | pagination (error : QueryError)
  | groupByRequired (kpi : String)
  | unknownGroupBy (field : String) (allowed : List String)
  | invalidDate
  deriving DecidableEq, Repr

/-! ## Windows -/

def parseOccurredAt (value : DateTime) (field : String) : Except AnalyticsError ℤ :=
  match value with
  | some time => .ok time
  | none => .error (.invalidTimestamp field)

def maxRangeDaysFor (granularity : AnalyticsGranularity) (configuredMax : ℕ) : ℕ :=
  min configuredMax <| match granularity with
    | .hour => 14
    | .day => 90
    | .week => 366
    | .month => 366

def defaultRangeDays : ℤ := 7

/-- The end is exclusive: the default one is a millisecond ahead. -/
def windowEnd (now : ℤ) («to» : Option DateTime) : Except AnalyticsError ℤ :=
  match «to» with
  | none => .ok (now + 1)
  | some date => parseOccurredAt date "to"

/-- The default start may be no valid date. -/
def windowStart (last : ℤ) («from» : Option DateTime) : Except AnalyticsError DateTime :=
  match «from» with
  | none => .ok (Dates.timeClip (last - defaultRangeDays * Dates.msPerDay))
  | some date => some <$> parseOccurredAt date "from"

/-- No comparison with an invalid start is true. -/
def checkWindow (start : DateTime) (last : ℤ) (granularity : AnalyticsGranularity) (maxRangeDays : ℕ) :
    Except AnalyticsError Unit :=
  let maxDays := maxRangeDaysFor granularity maxRangeDays
  match start with
  | none => .ok ()
  | some first =>
      if first ≥ last then .error (.fromNotEarlier first last)
      else if last - first > maxDays * Dates.msPerDay then .error (.rangeTooLarge maxDays granularity)
      else .ok ()

def resolveQueryWindow (now : ℤ) («from» «to» : Option DateTime) (granularity : AnalyticsGranularity)
    (maxRangeDays : ℕ) : Except AnalyticsError AnalyticsWindow := do
  let last ← windowEnd now «to»
  let start ← windowStart last «from»
  checkWindow start last granularity maxRangeDays
  return { «from» := start, «to» := last }

/-! ## Checks -/

structure AnalyticsService where
  runtime : AnalyticsRuntimeConfig
  platform : Platform
  kpis : List AnalyticsKpiDefinition
  provider : MemoryAnalyticsProvider

def normalizeFilters (kpi : AnalyticsKpiDefinition) (filters : List AnalyticsFilter) :
    Except AnalyticsError (List AnalyticsFilter) :=
  let allowed := (kpi.dimensions.filter fun dimension => dimension.2.filterable).map Prod.fst
  filters.mapM fun filter => do
    if !allowed.contains filter.field then throw (.unknownFilterField filter.field allowed)
    match filter.operator, filter.value with
    | .in, .item _ => throw (.inRequiresArray filter.field)
    | _, _ => return filter

def requireGroupBy (kpi : AnalyticsKpiDefinition) (groupBy : Option String) : Except AnalyticsError String :=
  match groupBy.filter (· ≠ "") with
  | none => .error (.groupByRequired kpi.name)
  | some groupBy =>
      if (Table.lookup Prod.fst groupBy kpi.dimensions).any fun dimension => dimension.2.groupable then .ok groupBy
      else
        let groupable := (kpi.dimensions.filter fun dimension => dimension.2.groupable).map Prod.fst
        .error (.unknownGroupBy groupBy groupable)

/-- Only a breakdown has a dimension. -/
def groupByOf (kpi : AnalyticsKpiDefinition) (kind : AnalyticsQueryKind) (groupBy : Option String) :
    Except AnalyticsError String :=
  if kind = .breakdown then requireGroupBy kpi groupBy else .ok ""

def assertPermission (actor : AnalyticsActor) (kpi : AnalyticsKpiDefinition) : Except AnalyticsError Unit :=
  if actor.permissions.contains kpi.permission then .ok () else .error (.missingPermission kpi.permission kpi.name)

def isoText (date : DateTime) : Except AnalyticsError Text :=
  match date with
  | some time => .ok (Dates.toISOString time)
  | none => .error .invalidDate

namespace AnalyticsService

def assertReady (service : AnalyticsService) : Except AnalyticsError Unit :=
  if service.runtime.enabled then .ok () else .error .featureDisabled

def getKpi (service : AnalyticsService) (name : String) : Except AnalyticsError AnalyticsKpiDefinition :=
  match Table.lookup AnalyticsKpiDefinition.name name service.kpis with
  | some kpi => .ok kpi
  | none => .error (.unknownKpi name)

/-- What `query` works out before it asks the provider. -/
structure Request where
  kpi : AnalyticsKpiDefinition
  kind : AnalyticsQueryKind
  granularity : AnalyticsGranularity
  pageParams : PaginationParams
  /-- The dimension of a breakdown, and nothing for another query. -/
  groupBy : String
  providerQuery : ProviderAnalyticsWindow
  deriving DecidableEq, Repr

/-- The part of the answer that is asked for: a page, or with `take` the beginning. -/
def pageParams (maxSeriesPoints : ℕ) (inputTake : Option ℕ) (pagination : PaginationParams) : PaginationParams :=
  let take := min (inputTake.getD pagination.take) maxSeriesPoints
  let skip := if inputTake.isSome then 0 else pagination.skip
  if inputTake.isSome then { pagination with page := 1, pageSize := take, skip := 0, take }
  else { pagination with take, skip }

def prepare (service : AnalyticsService) (now : ℤ) (input : AnalyticsQueryInput) : Except AnalyticsError Request := do
  service.assertReady
  let kpi ← service.getKpi input.kpi
  assertPermission input.actor kpi
  let kind := input.kind.getD .snapshot
  let granularity := input.granularity.getD .day
  let window ← resolveQueryWindow now input.from input.«to» (if kind = .timeseries then granularity else .day)
    service.runtime.maxRangeDays
  let filters ← normalizeFilters kpi input.filters
  let pagination ← (parsePagination { page := input.page, pageSize := input.pageSize }).mapError .pagination
  let groupBy ← groupByOf kpi kind input.groupBy
  return {
    kpi, kind, granularity, groupBy
    pageParams := pageParams service.runtime.maxSeriesPoints input.take pagination
    providerQuery := {
      kpiKey := kpi.name
      «from» := window.from
      «to» := window.«to»
      ownerId := input.actor.id
      ownerScoped := kpi.ownerScoped
      filters
      aggregation := kpi.aggregation } }

def answer (service : AnalyticsService) (request : Request) : Except AnalyticsError AnalyticsQueryResult :=
  let query := request.providerQuery
  let params := request.pageParams
  match request.kind with
  | .timeseries => do
      let some (totalItems, points) :=
          service.provider.timeseries service.platform query request.granularity params.skip params.take
        | throw .invalidDate
      let page := toPaginatedResult points params totalItems
      return {
        kind := .timeseries, kpi := request.kpi.name, aggregation := query.aggregation, unit := request.kpi.unit
        «from» := ← isoText query.from, «to» := ← isoText query.«to», granularity := request.granularity
        points := page.items, «meta» := page.meta }
  | .breakdown => do
      let (totalItems, rows) :=
        service.provider.breakdown service.platform query request.groupBy params.skip params.take
      let page := toPaginatedResult rows params totalItems
      return {
        kind := .breakdown, kpi := request.kpi.name, aggregation := query.aggregation, unit := request.kpi.unit
        «from» := ← isoText query.from, «to» := ← isoText query.«to», groupBy := request.groupBy
        rows := page.items, «meta» := page.meta }
  | .snapshot => do
      let snapshot := service.provider.snapshot query
      return {
        kind := .snapshot, kpi := request.kpi.name, aggregation := query.aggregation, unit := request.kpi.unit
        «from» := ← isoText query.from, «to» := ← isoText query.«to»
        snapshot := some { value := snapshot.value, samples := snapshot.samples }
        «meta» := {
          page := 1, pageSize := 1, totalItems := 1, totalPages := 1, hasNextPage := false, hasPreviousPage := false } }

def query (service : AnalyticsService) (now : ℤ) (input : AnalyticsQueryInput) :
    Except AnalyticsError AnalyticsQueryResult :=
  service.prepare now input >>= service.answer

end AnalyticsService

end DealFlow360.Analytics
