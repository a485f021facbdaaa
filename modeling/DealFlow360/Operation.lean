import DealFlow360.Catalog
import DealFlow360.Lib.Machine
import DealFlow360.Quotes

/-!
# Requests and runs

A request is one service operation with its arguments and what it meets outside
the store. Requests are taken one after another, each to its end; a request
that throws still leaves the writes it made.

`Operation` lists everything a caller can ask for, edits of a quote, catalog
edits and readings, and `Request` adds the actor and what the outside answers.
`serve` runs the program and keeps the world it ends in, in both outcomes;
`serveAll` is the run of `Lib.Machine`. The properties of the service are about
`serveAll` from a fresh world.
-/

namespace DealFlow360

open Program

/-- The operations that edit one stored quote. -/
inductive QuoteEdit where
  | addLine (quoteId : Id) (input : LineInput) (expectedVersion : ℕ) (actor : Actor)
  | updateLine (quoteId lineId : Id) (input : LineUpdate) (expectedVersion : ℕ) (actor : Actor)
  | removeLine (quoteId lineId : Id) (expectedVersion : ℕ) (actor : Actor)
  | applyRecommendation (quoteId relationId : Id) (actor : Actor) (expectedVersion : ℕ)
  | submit (quoteId : Id) (actor : Actor)
  | decide (quoteId approvalId : Id) (decision : ApprovalDecision) (reason : String) (actor : Actor)
  | startNegotiation (quoteId : Id) (actor : Actor)
  | createNegotiationRequest (quoteId : Id) (input : NegotiationInput) (actor : Option Actor)
  | respondToNegotiation (quoteId negotiationId : Id) (decision : NegotiationResponse)
      (responseNote : String) (expectedVersion : ℕ) (actor : Actor)
  | sendNegotiationToManager (quoteId : Id) (negotiationId : Option Id) (expectedVersion : ℕ)
  | reviseAsManager (quoteId : Id) (changes : List ManagerChange) (expectedVersion : ℕ)
      (actor : Actor)
  | returnRevisedQuote (quoteId : Id) (negotiationId : Option Id) (actor : Actor)
      (expectedVersion : ℕ)
  | agreeToFinal (quoteId : Id) (expectedVersion : ℕ)
  | finalizeQuotation (quoteId : Id) (actor : Actor) (expectedVersion : ℕ)
  | createPortalNegotiation (token : Id) (input : NegotiationInput)
  | applyPortalChange (token : Id) (expectedVersion : ℕ) (changes : List PortalLineChange)
  | applyPortalDecision (token : Id) (expectedVersion : ℕ) (action : CustomerDecision)
      (comment : Option String)
  | planFulfillment (quoteId : Id) (overrides : List FulfillmentOverride) (expectedVersion : ℕ)
  | generateBilling (quoteId : Id) (expectedVersion : ℕ)
  | cancelBilling (quoteId scheduleId : Id) (expectedVersion : ℕ)
  | confirm (quoteId : Id) (actor : Actor) (expectedVersion : ℕ)
  | complete (quoteId : Id) (expectedVersion : ℕ)
  | voidQuote (quoteId : Id) (actor : Actor) (expectedVersion : ℕ)

def QuoteEdit.mutation (env : Env) : QuoteEdit → Mutation
  | addLine quoteId input version actor => DealFlow360.addLine env quoteId input version actor
  | updateLine quoteId lineId input version actor =>
      DealFlow360.updateLine env quoteId lineId input version actor
  | removeLine quoteId lineId version actor =>
      DealFlow360.removeLine env quoteId lineId version actor
  | applyRecommendation quoteId relationId actor version =>
      DealFlow360.applyRecommendation env quoteId relationId actor version
  | submit quoteId actor => DealFlow360.submit env quoteId actor
  | decide quoteId approvalId decision reason actor =>
      decideApproval env quoteId approvalId decision reason actor
  | startNegotiation quoteId actor => DealFlow360.startNegotiation env quoteId actor
  | createNegotiationRequest quoteId input actor =>
      DealFlow360.createNegotiationRequest env quoteId input actor
  | respondToNegotiation quoteId negotiationId decision note version actor =>
      DealFlow360.respondToNegotiation env quoteId negotiationId decision note version actor
  | sendNegotiationToManager quoteId negotiationId version =>
      DealFlow360.sendNegotiationToManager env quoteId negotiationId version
  | reviseAsManager quoteId changes version actor =>
      DealFlow360.reviseAsManager env quoteId changes version actor
  | returnRevisedQuote quoteId negotiationId actor version =>
      DealFlow360.returnRevisedQuote env quoteId negotiationId actor version
  | agreeToFinal quoteId version => DealFlow360.agreeToFinal env quoteId version
  | finalizeQuotation quoteId actor version =>
      DealFlow360.finalizeQuotation env quoteId actor version
  | createPortalNegotiation token input => DealFlow360.createPortalNegotiation env token input
  | applyPortalChange token version changes =>
      DealFlow360.applyPortalChange env token version changes
  | applyPortalDecision token version action comment =>
      DealFlow360.applyPortalDecision env token version action comment
  | planFulfillment quoteId overrides version => planQuote env quoteId overrides version
  | generateBilling quoteId version => DealFlow360.generateBilling env quoteId version
  | cancelBilling quoteId scheduleId version =>
      DealFlow360.cancelBilling env quoteId scheduleId version
  | confirm quoteId actor version => DealFlow360.confirm env quoteId actor version
  | complete quoteId version => DealFlow360.complete env quoteId version
  | voidQuote quoteId actor version => DealFlow360.voidQuote env quoteId actor version

/-- The operations on the catalog and the governance. -/
inductive CatalogEdit where
  | replaceQuantityBreaks (items : List QuantityBreak)
  | replaceRoleAuthorities (items : List RoleAuthority)
  | updateGovernance (input : GovernanceUpdate)
  | upsertProduct (input : ProductInput) (actor : Actor)
  | deleteProduct (id : Id) (actor : Actor)
  | upsertCustomer (input : CustomerInput) (actor : Actor)
  | deleteCustomer (id : Id) (actor : Actor)
  | provisionCustomer (email displayName : String) (companyName : Option String)
  | upsertStock (row : StockLevel) (actor : Actor)
  | deleteStock (warehouseId productId : Id) (actor : Actor)
  | upsertPolicy (policy : DiscountPolicy) (actor : Actor)
  | deletePolicy (id : Id) (actor : Actor)
  | upsertChain (input : ChainInput)
  | deleteChain (id : Id) (actor : Actor)
  | upsertWarehouse (id : Option Id) (name : String) (fulfillmentCostPerUnit : Num) (actor : Actor)
  | deleteWarehouse (id : Id) (actor : Actor)
  | upsertRelation (input : RelationInput) (actor : Actor)
  | deleteRelation (id : Id) (actor : Actor)

def CatalogEdit.program (env : Env) : CatalogEdit → Service PUnit
  | replaceQuantityBreaks items => DealFlow360.replaceQuantityBreaks items
  | replaceRoleAuthorities items => DealFlow360.replaceRoleAuthorities items
  | updateGovernance input => DealFlow360.updateGovernance input
  | upsertProduct input actor => do let _ ← DealFlow360.upsertProduct env input actor
  | deleteProduct id actor => DealFlow360.deleteProduct id actor
  | upsertCustomer input actor => do let _ ← editCustomer env input actor
  | deleteCustomer id actor => DealFlow360.deleteCustomer id actor
  | provisionCustomer email displayName companyName => do
      let _ ← DealFlow360.provisionCustomer env email displayName companyName
  | upsertStock row actor => DealFlow360.upsertStock row actor
  | deleteStock warehouseId productId actor => DealFlow360.deleteStock warehouseId productId actor
  | upsertPolicy policy actor => DealFlow360.upsertPolicy policy actor
  | deletePolicy id actor => DealFlow360.deletePolicy id actor
  | upsertChain input => DealFlow360.upsertChain input
  | deleteChain id actor => DealFlow360.deleteChain id actor
  | upsertWarehouse id name cost actor => DealFlow360.upsertWarehouse id name cost actor
  | deleteWarehouse id actor => DealFlow360.deleteWarehouse id actor
  | upsertRelation input actor => DealFlow360.upsertRelation input actor
  | deleteRelation id actor => DealFlow360.deleteRelation id actor

/-- The operations that answer with quotes and edit none: at most they move a customer's tier. -/
inductive QuoteRead where
  | getQuote (quoteId : Id)
  | getQuoteByToken (token : Id)
  | listQuotes
  | recommendations (quoteId : Id)

def QuoteRead.program (env : Env) : QuoteRead → Service PUnit
  | getQuote quoteId => do let _ ← DealFlow360.getQuote env quoteId
  | getQuoteByToken token => do let _ ← DealFlow360.getQuoteByToken env token
  | listQuotes => do let _ ← DealFlow360.listQuotes env
  | recommendations quoteId => do let _ ← DealFlow360.recommendations quoteId

inductive Operation where
  | edit (op : QuoteEdit)
  | createQuote (customerId : Id) (ownerId : Option String) (lines : List LineInput) (actor : Actor)
  | deleteQuote (quoteId : Id) (actor : Actor) (expectedVersion : ℕ)
  | assess (quoteId : Id)
  | catalog (op : CatalogEdit)
  | view (op : QuoteRead)

/-- `lockDeal` is `confirm`. -/
abbrev Operation.lockDeal (quoteId : Id) (actor : Actor) (expectedVersion : ℕ) : Operation :=
  .edit (.confirm quoteId actor expectedVersion)

def Operation.program (env : Env) : Operation → Service PUnit
  | edit op => do let _ ← (op.mutation env).run env
  | createQuote customerId ownerId lines actor => do
      let _ ← DealFlow360.createQuote env customerId ownerId lines actor
  | deleteQuote quoteId actor version => DealFlow360.deleteQuote quoteId actor version
  | assess quoteId => do let _ ← DealFlow360.assess env quoteId
  | catalog op => op.program env
  | view op => op.program env

structure Request where
  operation : Operation
  outside : Outside := {}

def Request.env (options : Options) (request : Request) : Env where
  options := options
  outside := request.outside

def Request.program (options : Options) (request : Request) : Service PUnit :=
  request.operation.program (request.env options)

/-- The world after a request, whether it returned or threw. -/
def serve (options : Options) (w : World) (request : Request) : World :=
  after (request.program options) w

/-- Whether the request returned. -/
def succeeds (options : Options) (w : World) (request : Request) : Bool :=
  match request.program options w with
  | .ok _ _ => true
  | .error _ _ => false

/-- The world after a run of requests, one after another. -/
abbrev serveAll (options : Options) (w : World) (requests : List Request) : World :=
  Machine.run (serve options) w requests

/-- A world without quotes; catalog, rules and customers are whatever they are. -/
structure World.Fresh (w : World) : Prop where
  quotes : w.store.quotes = []
  negotiations : w.store.negotiations = []
  emails : w.store.emails = []
  consumed : w.consumed = []

/-! ## A service on a memory store -/

/-- The text functions as they are on plain English text. -/
def plainPlatform : Platform where
  toLowerCase := String.toLower
  localeCompare left right := if left < right then -1 else if right < left then 1 else 0

def plainOptions : Options where
  platform := plainPlatform

/-- A service started on `createMemoryStore()`; ids below 100 name its seeded rows. -/
def startWorld : World where
  store := createMemoryStore
  nextUuid := 100

theorem startWorld_fresh : startWorld.Fresh := ⟨rfl, rfl, rfl, rfl⟩

def administrator : Actor where
  id := "ada"
  role := some "admin"

/-- The requests that take a new quote to `approved`, as its version grows. -/
def approvedDeal (lines : List LineInput) : List Request :=
  [{ operation := .createQuote 1 none lines administrator },
   { operation := .edit (.sendNegotiationToManager 100 none 1) },
   { operation := .edit (.finalizeQuotation 100 administrator 2) },
   { operation := .edit (.submit 100 administrator) }]

/-- The requests that take a new quote to its lock. -/
def lockedDeal (lines : List LineInput) : List Request :=
  approvedDeal lines ++ [{ operation := .lockDeal 100 administrator 4 }]

end DealFlow360
