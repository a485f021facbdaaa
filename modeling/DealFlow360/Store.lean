import DealFlow360.Lib.Program
import DealFlow360.Lib.Table
import DealFlow360.Defaults
import DealFlow360.Fulfillment
import DealFlow360.Lifecycle
import DealFlow360.Loyalty

/-!
# The memory store

The tables behind the service and the operations it calls on them. A quote is
stored with the customer and the products it was saved with, but every read
attaches the current ones.

Tables are those of `Lib.Table`, keyed by id; the supply of ids is a counter,
and portal tokens are drawn from it too. Writing an entity writes all of its
row, as the memory store does. The operations that answer (`findById` and its
like) throw the source's errors, and the simp lemmas beside them say what each
leaves of each table.
-/

namespace DealFlow360

open Program

structure Store where
  customers : List Customer
  products : List Product
  warehouses : List Warehouse
  stock : List StockLevel
  policies : List DiscountPolicy
  chains : List ApprovalChain
  relations : List ProductRelation
  quantityBreaks : List QuantityBreak
  roleAuthorities : List RoleAuthority
  governance : GovernanceConfig
  quotes : List QuoteAggregate := []
  negotiations : List NegotiationRequest := []
  emails : List QuoteEmailDelivery := []
  quoteSeq : ℕ := 0

/-- A message handed to the email adapter. -/
structure SentEmail where
  recipient : String
  idempotencyKey : String
  quoteId : Id
  eventType : QuoteEmailEvent
  quoteVersion : ℕ
  filename : String
  deriving DecidableEq, Repr

/-- Everything a request can change: the store, the supply of UUIDs, and two records of what left
the system, the emails handed over and the allocations taken off the shelf by a confirmation. -/
structure World where
  store : Store
  nextUuid : ℕ
  outbox : List SentEmail := []
  consumed : List FulfillmentSplit := []

/-- A service computation: a failing one keeps the writes made before it failed. -/
abbrev Service := EStateM DomainError World

/-- The text functions of the platform: `toLowerCase` and `localeCompare`. -/
structure Platform where
  toLowerCase : String → String
  localeCompare : String → String → Num

abbrev QuoteAggregate.id (aggregate : QuoteAggregate) : Id := aggregate.quote.id

/-- `createMemoryStore()`. -/
def createMemoryStore : Store where
  customers := defaultCustomers
  products := defaultProducts
  warehouses := defaultWarehouses
  stock := defaultStock
  policies := defaultPolicies
  chains := defaultChains
  relations := defaultRelations
  quantityBreaks := defaultQuantityBreaks
  roleAuthorities := defaultRoleAuthorities
  governance := defaultGovernance

/-- `crypto.randomUUID()`. -/
def randomUUID : Service Id := do
  let uuid ← read (·.nextUuid)
  write fun w => { w with nextUuid := w.nextUuid + 1 }
  return uuid

/-- The supply an engine takes `count` ids from. -/
def randomUUIDs (count : ℕ) : Service (ℕ → Id) := do
  let base ← read (·.nextUuid)
  write fun w => { w with nextUuid := w.nextUuid + count }
  return fun index => base + index

namespace Store

/-! ## Reading -/

def getCustomer (store : Store) (id : Id) : Option Customer :=
  store.customers.find? fun item => item.id = id

def getProduct (store : Store) (id : Id) : Option Product :=
  store.products.find? fun item => item.id = id

/-- The quote as a reader sees it: with today's customer and today's products. -/
def attach (store : Store) (aggregate : QuoteAggregate) : Except DomainError QuoteAggregate :=
  match store.getCustomer aggregate.quote.customerId with
  | none => .error (internal "Customer missing on quote")
  | some customer =>
      .ok { aggregate with
            customer
            products := aggregate.lines.filterMap fun line => store.getProduct line.productId }

/-- The stored record of a quote, before anything is attached. -/
def storedQuote (store : Store) (id : Id) : Option QuoteAggregate :=
  Table.lookup QuoteAggregate.id id store.quotes

def storedByToken (store : Store) (token : Id) : Option QuoteAggregate :=
  store.quotes.find? fun item => item.quote.portalToken = token

def countCustomerQuotes (store : Store) (customerId : Id) : ℕ :=
  store.quotes.countP fun item => item.quote.customerId = customerId

def countWonPurchases (store : Store) (customerId : Id) : ℕ :=
  store.quotes.countP fun item => item.quote.customerId = customerId && isWon item.quote.status

def countProductQuoteLines (store : Store) (productId : Id) : ℕ :=
  (store.quotes.map fun item => item.lines.countP fun line => line.productId = productId).sum

def countWarehouseAllocations (store : Store) (warehouseId : Id) : ℕ :=
  (store.quotes.map fun item =>
    item.allocations.countP fun split => split.warehouseId = warehouseId).sum

def countChainApprovals (store : Store) (chainId : Id) : ℕ :=
  (store.quotes.map fun item =>
    (if item.quote.requiredChainId = some chainId then 1 else 0)
      + item.approvals.countP fun approval => approval.chainId = chainId).sum

def listNegotiations (store : Store) (quoteId : Id) : List NegotiationRequest :=
  sortBy (fun a b => (a.createdAt : Num) - b.createdAt)
    (store.negotiations.filter fun item => item.quoteId = quoteId)

def getNegotiation (store : Store) (id : Id) : Option NegotiationRequest :=
  store.negotiations.find? fun item => item.id = id

def listQuoteEmails (store : Store) (quoteId : Id) : List QuoteEmailDelivery :=
  sortBy (fun a b => (a.createdAt : Num) - b.createdAt)
    (store.emails.filter fun item => item.quoteId = quoteId)

def findQuoteEmailByKey (store : Store) (idempotencyKey : String) : Option QuoteEmailDelivery :=
  store.emails.find? fun item => item.idempotencyKey = idempotencyKey

/-! ## Writing the catalog -/

def upsertProduct (product : Product) (store : Store) : Store :=
  { store with products := Table.upsert (·.id) product store.products }

def deleteProduct (id : Id) (store : Store) : Store :=
  if (store.getProduct id).isNone then store
  else
    { store with
      products := store.products.eraseP fun item => item.id = id
      stock := store.stock.filter fun item => item.productId ≠ id
      quantityBreaks := store.quantityBreaks.filter fun item => item.productId ≠ id
      relations := store.relations.filter fun item =>
        item.productId ≠ id && item.recommendedProductId ≠ id }

def deleteCustomer (id : Id) (store : Store) : Store :=
  { store with customers := store.customers.eraseP fun item => item.id = id }

def upsertWarehouse (warehouse : Warehouse) (store : Store) : Store :=
  { store with warehouses := Table.upsert (·.id) warehouse store.warehouses }

def deleteWarehouse (id : Id) (store : Store) : Store :=
  if store.warehouses.any fun item => item.id = id then
    { store with
      warehouses := store.warehouses.eraseP fun item => item.id = id
      stock := store.stock.filter fun item => item.warehouseId ≠ id }
  else store

def replaceStock (next : List StockLevel) (store : Store) : Store := { store with stock := next }

def upsertStock (row : StockLevel) (store : Store) : Store :=
  { store with stock := Table.upsert StockLevel.key row store.stock }

def deleteStock (warehouseId productId : Id) (store : Store) : Store :=
  { store with stock := Table.erase StockLevel.key (warehouseId, productId) store.stock }

def upsertPolicy (policy : DiscountPolicy) (store : Store) : Store :=
  { store with policies := Table.upsert (·.id) policy store.policies }

def deletePolicy (id : Id) (store : Store) : Store :=
  { store with policies := store.policies.eraseP fun item => item.id = some id }

def upsertChain (chain : ApprovalChain) (store : Store) : Store :=
  { store with chains := Table.upsert (·.id) chain store.chains }

def deleteChain (id : Id) (store : Store) : Store :=
  { store with chains := store.chains.eraseP fun item => item.id = id }

def upsertRelation (relation : ProductRelation) (store : Store) : Store :=
  { store with relations := Table.upsert (·.id) relation store.relations }

def deleteRelation (id : Id) (store : Store) : Store :=
  { store with relations := store.relations.eraseP fun item => item.id = id }

/-! ## Writing quotes and what belongs to them -/

def setQuote (aggregate : QuoteAggregate) (store : Store) : Store :=
  { store with quotes := Table.upsert QuoteAggregate.id aggregate store.quotes }

def deleteQuote (id : Id) (store : Store) : Store :=
  { store with
    quotes := Table.erase QuoteAggregate.id id store.quotes
    negotiations := store.negotiations.filter fun item => item.quoteId ≠ id
    emails := store.emails.filter fun item => item.quoteId ≠ id }

def saveNegotiation (item : NegotiationRequest) (store : Store) : Store :=
  { store with negotiations := Table.upsert (·.id) item store.negotiations }

def saveQuoteEmail (item : QuoteEmailDelivery) (store : Store) : Store :=
  { store with
    emails := Table.upsertBy
      (fun row => row.id = item.id || row.idempotencyKey = item.idempotencyKey) item store.emails }

end Store

/-- Run a store operation that only writes. -/
def updateStore (f : Store → Store) : Service PUnit :=
  write fun w => { w with store := f w.store }

/-! ## Store operations that answer -/

/-- `getQuote`: nothing, or the quote with its customer attached. -/
def getStoredQuote (find : Store → Option QuoteAggregate) : Service (Option QuoteAggregate) := do
  let store ← read (·.store)
  match find store with
  | none => return none
  | some found => return some (← lift (store.attach found))

/-- `saveQuote`: the write stands even if the customer cannot be attached to the answer. -/
def saveQuote (aggregate : QuoteAggregate) : Service QuoteAggregate := do
  updateStore (Store.setQuote aggregate)
  let store ← read (·.store)
  lift (store.attach aggregate)

def nextQuoteNumber : Service String := do
  updateStore fun store => { store with quoteSeq := store.quoteSeq + 1 }
  let quoteSeq ← read (·.store.quoteSeq)
  return "DF-" ++ padStart (toString quoteSeq) 5 '0'

structure CustomerInput where
  id : Option Id := none
  name : String
  email : String
  tier : Option CustomerTier := none
  deriving DecidableEq, Repr

/-- The row an upsert of a customer lands on: by id, else by email. -/
def Store.matchCustomer (platform : Platform) (store : Store) (input : CustomerInput) :
    Option Customer :=
  let needle := platform.toLowerCase (trim input.email)
  (input.id.bind store.getCustomer).or
    (store.customers.find? fun item => platform.toLowerCase item.email = needle)

def upsertCustomer (platform : Platform) (input : CustomerInput) : Service Customer := do
  let store ← read (·.store)
  match store.matchCustomer platform input with
  | some existing =>
      let updated : Customer :=
        { existing with
          name := input.name
          email := trim input.email
          tier := (input.tier.map fun tier => persistCustomerTier tier.text).getD existing.tier }
      updateStore fun store =>
        { store with
          customers := Table.modifyFirst (fun item => decide (item = existing)) (fun _ => updated)
            store.customers }
      return updated
  | none =>
      let uuid ← randomUUID
      let created : Customer :=
        { id := input.id.getD uuid
          name := input.name
          email := trim input.email
          tier := persistCustomerTier (input.tier.getD .standard).text }
      updateStore fun store => { store with customers := store.customers ++ [created] }
      return created

end DealFlow360
