import DealFlow360.Operation
import DealFlow360.Search.Providers

/-!
# Anomalies

What a saved quote shows of the unusual, and the list it is put on. The
programs of the service are run beside that list: a save looks for anomalies,
deleting a quote takes its own away, and a disposition sets the status of one.
`watch` is a program that leaves the list alone. Ids of anomalies have a count
of their own.

The service is not changed for this: each program of `Operation` is lifted to a
world that has the list as well, and what the lift does to the store is what
the program does. The detection reads the saved quote with its revisions, its
assessment and how long it has lain untouched, and makes the records with the
texts of the source.

The properties of the list over runs are in the module about open anomalies;
here are the records, the detection and the lifted programs.
-/

namespace DealFlow360

open Program

/-! ## Records -/

inductive AnomalySeverity where
  | warning | critical
  deriving DecidableEq, Repr

inductive AnomalyStatus where
  | «open» | acknowledged | resolved | dismissed
  deriving DecidableEq, Repr

/-- What is found, before it is stored. -/
structure FoundAnomaly where
  type : String
  severity : AnomalySeverity
  entityType : String
  entityId : Id
  quoteId : Option Id
  description : String
  detectedAt : Timestamp
  deriving DecidableEq, Repr

structure DealflowAnomaly extends FoundAnomaly where
  id : Id
  status : AnomalyStatus
  resolution : Option String := none
  resolverId : Option String := none
  updatedAt : Timestamp
  deriving DecidableEq, Repr

/-! ## Detection -/

def dayMs : Num := 86400000

/-- `detectQuoteAnomalies`. -/
def detectQuoteAnomalies (aggregate : QuoteAggregate) (assessment : Option QuoteAssessment)
    (config : GovernanceConfig) (now : Timestamp) : List FoundAnomaly :=
  let quote := aggregate.quote
  let staleDays : Num := max 0 (((now : Num) - quote.updatedAt) / dayMs)
  let approvalCycles := (aggregate.revisions.filter (·.materialChange)).length
  let qtyJump := aggregate.revisions.any (·.materialChange)
  let found (type : String) (severity : AnomalySeverity) (description : String) : FoundAnomaly :=
    { type
      severity
      entityType := "quote"
      entityId := quote.id
      quoteId := some quote.id
      description := s!"{quote.number}: " ++ description
      detectedAt := now }
  (if config.unusualDiscountPercent ≤ quote.blendedDiscountPercent then
    [found "unusual_discount" .critical
      (s!"unusual blended discount {fixedText 1 quote.blendedDiscountPercent}% (threshold " ++
        s!"{numText config.unusualDiscountPercent}%).")] else []) ++
  (if config.largeDealNetTotal ≤ quote.netTotal then
    [found "large_deal" .warning
      (s!"unusually large net {fixedText 0 quote.netTotal} (threshold {numText config.largeDealNetTotal}).")]
    else []) ++
  (if (assessment.elim [] (·.reasons)).any fun reason => Search.includes reason "Unit price override" then
    [found "price_override" .warning "abnormal unit-price override requires governance review."] else []) ++
  (if 2 ≤ approvalCycles ∧ quote.status = .approvalRequired then
    [found "repeated_approval" .warning
      s!"repeated approval requests after {approvalCycles} material revisions."] else []) ++
  (if qtyJump ∧ quote.status = .customerNegotiation then
    [found "negotiation_spike" .warning "unusual negotiation produced a material commercial change."] else []) ++
  (if config.staleQuoteDays ≤ staleDays ∧ quote.status ≠ .completed ∧ quote.status ≠ .rejected then
    [found "stale_deal" (if config.staleQuoteDays * 2 ≤ staleDays then .critical else .warning)
      s!"stale for {fixedText 1 staleDays} days with no commercial movement."] else []) ++
  (if 0 < (aggregate.backorders.map (·.quantity)).sum then
    [found "inventory_shortfall" .warning "inventory shortfall created a backorder."] else [])

/-! ## The list -/

/-- The world, with the anomalies that were found. -/
structure WatchedWorld where
  world : World
  anomalies : List DealflowAnomaly := []
  nextAnomaly : Id := 0

abbrev WatchedService := EStateM DomainError WatchedWorld

/-- A program that leaves the anomalies alone. -/
def watch {α : Type} (program : Service α) : WatchedService α := fun s =>
  match program s.world with
  | .ok a w => .ok a { s with world := w }
  | .error e w => .error e { s with world := w }

/-- Whether the anomaly is an open one of this type and entity. -/
def isOpenOf (type : String) (entityId : Id) (anomaly : DealflowAnomaly) : Bool :=
  anomaly.type = type && anomaly.entityId = entityId && anomaly.status = .open

def upsertAnomaly (item : DealflowAnomaly) (s : WatchedWorld) : WatchedWorld :=
  { s with anomalies := Table.upsert (·.id) item s.anomalies }

/-- A found anomaly is stored, unless there was an open one like it on the list that was read. -/
def persistAnomaly (existing : List DealflowAnomaly) (s : WatchedWorld) (item : FoundAnomaly) : WatchedWorld :=
  if existing.any (isOpenOf item.type item.entityId) then s
  else
    upsertAnomaly { item with id := s.nextAnomaly, status := .open, updatedAt := item.detectedAt }
      { s with nextAnomaly := s.nextAnomaly + 1 }

def persistAnomalies (env : Env) (aggregate : QuoteAggregate) (assessment : Option QuoteAssessment) :
    WatchedService PUnit := do
  let config ← read fun s => env.options.governanceOf s.world.store
  let existing ← read (·.anomalies)
  write fun s =>
    (detectQuoteAnomalies aggregate assessment config env.now).foldl (persistAnomaly existing) s

structure AnomalyDisposition where
  status : AnomalyStatus
  resolution : Option String := none
  deriving DecidableEq, Repr

/-- The anomaly as a disposition leaves it. -/
def DealflowAnomaly.disposed (anomaly : DealflowAnomaly) (input : AnomalyDisposition) (actorId : String)
    (now : Timestamp) : DealflowAnomaly :=
  { anomaly with
    status := input.status
    resolution := input.resolution <|> anomaly.resolution
    resolverId := some actorId
    updatedAt := now }

def disposeAnomaly (id : Id) (input : AnomalyDisposition) (actorId : String) (now : Timestamp) :
    WatchedService PUnit := do
  let found ← read fun s => Table.lookup (fun anomaly : DealflowAnomaly => anomaly.id) id s.anomalies
  let existing ← orThrow found (notFound "Anomaly not found" [("id", .id id)])
  write (upsertAnomaly (existing.disposed input actorId now))

/-! ## Programs -/

/-- `saveAssessed`, with what is found in the saved quote. -/
def saveWatched (env : Env) (aggregate : QuoteAggregate) : WatchedService QuoteAggregate := do
  let refreshed ← watch (refreshAssessment env.options aggregate)
  let saved ← watch (saveQuote (stamp env refreshed.1))
  persistAnomalies env saved (some refreshed.2)
  return saved

def Mutation.watched (env : Env) (mutation : Mutation) : WatchedService QuoteAggregate := do
  let loaded ← watch mutation.load
  let edited ← watch (mutation.edit loaded)
  match edited with
  | none => watch (mutation.idle loaded)
  | some aggregate => do
      let saved ← saveWatched env aggregate
      watch (mutation.tail saved)

def createQuoteWatched (env : Env) (customerId : Id) (ownerId : Option String) (inputs : List LineInput)
    (actor : Actor) : WatchedService QuoteAggregate := do
  let draft ← watch (draftQuote env customerId ownerId inputs actor)
  let saved ← saveWatched env draft
  watch (decorate env saved)

def deleteQuoteWatched (quoteId : Id) (actor : Actor) (expectedVersion : ℕ) : WatchedService PUnit := do
  watch (deleteQuote quoteId actor expectedVersion)
  write fun s => { s with anomalies := s.anomalies.filter fun anomaly => anomaly.quoteId ≠ some quoteId }

def Operation.watched (env : Env) : Operation → WatchedService PUnit
  | edit op => do let _ ← (op.mutation env).watched env
  | createQuote customerId ownerId lines actor => do
      let _ ← createQuoteWatched env customerId ownerId lines actor
  | deleteQuote quoteId actor version => deleteQuoteWatched quoteId actor version
  | assess quoteId => watch (Operation.program env (.assess quoteId))
  | catalog op => watch (op.program env)
  | view op => watch (op.program env)

inductive WatchedRequest where
  | operation (request : Request)
  | disposeAnomaly (id : Id) (input : AnomalyDisposition) (actorId : String) (now : Timestamp)

def WatchedRequest.program (options : Options) : WatchedRequest → WatchedService PUnit
  | operation request => request.operation.watched (request.env options)
  | disposeAnomaly id input actorId now => DealFlow360.disposeAnomaly id input actorId now

/-- The state after a request, whether it returned or threw. -/
def WatchedWorld.serve (options : Options) (s : WatchedWorld) (request : WatchedRequest) : WatchedWorld :=
  after (request.program options) s

end DealFlow360
