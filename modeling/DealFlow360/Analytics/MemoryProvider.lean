import DealFlow360.Dates
import DealFlow360.Lib.Grouping

/-!
# The analytics provider in memory

Facts by source and event id, and the aggregates over those that a query
selects: one value, one for each bucket of time, or one for each value of a
dimension. The order of texts and the text of a number are the platform's.

An upsert is by source and event id, so a fact that is recorded twice is kept
once. The queries of the provider are filters followed by one of three folds,
and the folds are those of `Lib.Grouping`: what a query selects is grouped by a
key, and each group is folded with the aggregate that was asked for. Averages
divide the exact sum by the count.

Results leave the provider through `roundMetric`, six places after the point;
before that, values are exact.
-/

namespace DealFlow360.Analytics

open Events (Text)

inductive AnalyticsAggregation where
  | count | sum | avg | min | max
  deriving DecidableEq, Repr

inductive AnalyticsGranularity where
  | hour | day | week | month
  deriving DecidableEq, Repr

inductive FilterOperator where
  | eq | neq | in | gte | lte
  deriving DecidableEq, Repr

/-- What a dimension is compared with; no dimension is an object. -/
inductive FilterItem where
  | undefined
  | scalar (value : JsonScalar)
  | object
  deriving DecidableEq, Repr

inductive FilterValue where
  | item (value : FilterItem)
  | array (items : List FilterItem)
  deriving DecidableEq, Repr

structure AnalyticsFilter where
  field : String
  operator : FilterOperator
  value : FilterValue
  deriving DecidableEq, Repr

structure StoredAnalyticsFact where
  kpiKey : String
  source : String
  eventId : String
  occurredAt : ℤ
  ownerId : Option Id
  value : Num
  dimensions : List (String × JsonScalar)
  deriving DecidableEq, Repr

structure ProviderAnalyticsWindow where
  kpiKey : String
  «from» : DateTime
  «to» : ℤ
  ownerId : Option Id
  ownerScoped : Bool
  filters : List AnalyticsFilter
  aggregation : AnalyticsAggregation
  deriving DecidableEq, Repr

structure ProviderSnapshotResult where
  value : Num
  samples : ℕ
  deriving DecidableEq, Repr

structure AnalyticsSeriesPoint where
  bucket : Text
  value : Num
  samples : ℕ
  deriving DecidableEq, Repr

structure AnalyticsBreakdownRow where
  key : Text
  value : Num
  samples : ℕ
  deriving DecidableEq, Repr

structure Platform where
  localeCompare : Text → Text → Num
  numberText : Num → Text

/-! ## Aggregates -/

def aggregateValues (values : List Num) (aggregation : AnalyticsAggregation) : Num :=
  match aggregation, values with
  | .count, values => values.length
  | _, [] => 0
  | .sum, values => values.sum
  | .avg, values => values.sum / values.length
  | .min, value :: values => values.foldl min value
  | .max, value :: values => values.foldl max value

/-- `Number(value.toFixed(6))`: halves away from zero, and huge numbers as they are. -/
def roundMetric (value : Num) : Num :=
  if 10 ^ 21 ≤ |value| then value
  else
    let places : Num := (⌊|value| * 10 ^ 6 + 1 / 2⌋ : ℤ) / 10 ^ 6
    if value < 0 then -places else places

def valuesOf (facts : List StoredAnalyticsFact) (aggregation : AnalyticsAggregation) : List Num :=
  match aggregation with
  | .count => facts.map fun _ => 1
  | _ => facts.map (·.value)

/-- What a snapshot, a bucket or a group shows of its facts, before it is rounded. -/
def exactValue (aggregation : AnalyticsAggregation) (facts : List StoredAnalyticsFact) : Num :=
  aggregateValues (valuesOf facts aggregation) aggregation

/-! ## Buckets and groups -/

def truncateUtc (date : ℤ) (granularity : AnalyticsGranularity) : DateTime :=
  let civil := Dates.civil date
  match granularity with
  | .hour => Dates.utc civil (Dates.getUTCHours date)
  | .day => Dates.utc civil 0
  | .month => Dates.utc { civil with day := 1 } 0
  | .week =>
      (Dates.utc civil 0).bind fun start =>
        let weekday := Dates.getUTCDay start
        let isoOffset := if weekday = 0 then 6 else weekday - 1
        Dates.timeClip (start - isoOffset * Dates.msPerDay)

/-- The text that a fact's bucket is kept under; `toISOString` throws for an invalid date. -/
def bucketOf (granularity : AnalyticsGranularity) (fact : StoredAnalyticsFact) : Option Text :=
  (truncateUtc fact.occurredAt granularity).map Dates.toISOString

def dimension (dimensions : List (String × JsonScalar)) (field : String) : Option JsonScalar :=
  (Table.lookup Prod.fst field dimensions).map Prod.snd

def stringifyDimension (platform : Platform) (value : Option JsonScalar) : Text :=
  match value with
  | none | some .null => []
  | some (.string value) => codeUnits value
  | some (.number value) => platform.numberText value
  | some (.boolean value) => codeUnits (if value then "true" else "false")

/-! ## Which facts a query selects -/

/-- `===` of a dimension and an item. -/
def sameValue (current : Option JsonScalar) (item : FilterItem) : Bool :=
  match item with
  | .undefined => current.isNone
  | .scalar value => current = some value
  | .object => false

def matchesFilter (dimensions : List (String × JsonScalar)) (filter : AnalyticsFilter) : Bool :=
  let current := dimension dimensions filter.field
  match filter.operator, filter.value, current with
  | .eq, .item value, current => sameValue current value || (value = .scalar .null && current.isNone)
  | .eq, .array _, _ => false
  | .neq, .item value, current => !sameValue current value
  | .neq, .array _, _ => true
  | .in, .array items, current => items.any (sameValue current)
  | .gte, .item (.scalar (.number bound)), some (.number value) => value ≥ bound
  | .lte, .item (.scalar (.number bound)), some (.number value) => value ≤ bound
  | _, _, _ => false

/-- A comparison with an invalid date is false. -/
def matchesWindow (fact : StoredAnalyticsFact) (query : ProviderAnalyticsWindow) : Bool :=
  fact.kpiKey = query.kpiKey &&
    !(query.from.any (fact.occurredAt < ·) || fact.occurredAt ≥ query.«to») &&
    !(query.ownerScoped && fact.ownerId ≠ query.ownerId) &&
    query.filters.all (matchesFilter fact.dimensions)

/-! ## The provider -/

structure MemoryAnalyticsProvider where
  facts : List StoredAnalyticsFact := []
  deriving DecidableEq, Repr

namespace MemoryAnalyticsProvider

def select (provider : MemoryAnalyticsProvider) (query : ProviderAnalyticsWindow) : List StoredAnalyticsFact :=
  provider.facts.filter (matchesWindow · query)

def snapshot (provider : MemoryAnalyticsProvider) (query : ProviderAnalyticsWindow) : ProviderSnapshotResult :=
  let matched := provider.select query
  { value := roundMetric (exactValue query.aggregation matched), samples := matched.length }

/-- The points of all buckets, in the order of the buckets' texts. -/
def points (platform : Platform) (provider : MemoryAnalyticsProvider) (query : ProviderAnalyticsWindow)
    (granularity : AnalyticsGranularity) : Option (List AnalyticsSeriesPoint) := do
  let keyed ← (provider.select query).mapM fun fact => (bucketOf granularity fact).map fun bucket => (bucket, fact)
  let buckets := sortBy (fun left right => platform.localeCompare left.1 right.1) (Grouping.groups Prod.fst keyed)
  return buckets.map fun (bucket, facts) =>
    { bucket
      value := roundMetric (exactValue query.aggregation (facts.map Prod.snd))
      samples := facts.length }

/-- The page of a series and the number of buckets, and none where a bucket has no text. -/
def timeseries (platform : Platform) (provider : MemoryAnalyticsProvider) (query : ProviderAnalyticsWindow)
    (granularity : AnalyticsGranularity) (skip take : ℕ) : Option (ℕ × List AnalyticsSeriesPoint) := do
  let points ← provider.points platform query granularity
  return (points.length, (points.drop skip).take take)

def compareRows (platform : Platform) (left right : AnalyticsBreakdownRow) : Num :=
  if right.value - left.value ≠ 0 then right.value - left.value else platform.localeCompare left.key right.key

/-- The rows of all groups, higher values first. -/
def rows (platform : Platform) (provider : MemoryAnalyticsProvider) (query : ProviderAnalyticsWindow)
    (groupBy : String) : List AnalyticsBreakdownRow :=
  let groups := Grouping.groups (fun fact => stringifyDimension platform (dimension fact.dimensions groupBy))
    (provider.select query)
  sortBy (compareRows platform) (groups.map fun (key, facts) =>
    { key, value := roundMetric (exactValue query.aggregation facts), samples := facts.length })

def breakdown (platform : Platform) (provider : MemoryAnalyticsProvider) (query : ProviderAnalyticsWindow)
    (groupBy : String) (skip take : ℕ) : ℕ × List AnalyticsBreakdownRow :=
  let rows := provider.rows platform query groupBy
  (rows.length, (rows.drop skip).take take)

end MemoryAnalyticsProvider

end DealFlow360.Analytics
