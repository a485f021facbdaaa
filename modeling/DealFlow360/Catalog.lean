import DealFlow360.GovernanceConfig
import DealFlow360.Service

/-!
# Operations on the catalog and the governance

Customers, products, stock, warehouses, policies, chains and relations, and the
pricing and authority rules. Nothing here writes a quote.

Every operation is a program over the same store, in the shape of the quote
service: a check of the role, a check of the input, a read of the row, a write.
The replaces of the pricing rules, the authorities and the relations write
their lists one row after the other, and a write that fails leaves what was
written before; the modules about saving and replacing start from these
definitions.
-/

namespace DealFlow360

open Program

def canWriteProducts (actor : Actor) : Bool :=
  actorHas (some actor) "dealflow.catalog.products.write"
    || actorHas (some actor) "dealflow.catalog.write"

def canManageCustomers (actor : Actor) : Bool :=
  actorHas (some actor) "dealflow.catalog.write" || actorHas (some actor) "dealflow.quotes.write"

/-- The guard of the operations only a catalog administrator may use. -/
def assertCatalogWrite (actor : Actor) (message : String) : Service PUnit :=
  throwIf (¬ actorHas (some actor) "dealflow.catalog.write") (forbidden message)

/-! ## Rules -/

def replaceQuantityBreaks (items : List QuantityBreak) : Service PUnit := do
  let next ← lift (validateQuantityBreaks items)
  updateStore fun store => { store with quantityBreaks := next }

def replaceRoleAuthorities (items : List RoleAuthority) : Service PUnit := do
  let next ← lift (validateRoleAuthorities items)
  updateStore fun store => { store with roleAuthorities := next }

def updateGovernance (input : GovernanceUpdate) : Service PUnit := do
  let previous ← read (·.store.governance)
  let next ← lift (validateGovernance (input.apply previous))
  updateStore fun store => { store with governance := next }

/-! ## Stock -/

def upsertStock (row : StockLevel) (actor : Actor) : Service PUnit := do
  throwIf (¬ canWriteProducts actor) (forbidden "You are not allowed to update product stock")
  throwIf (row.quantityOnHand < 0 ∨ row.reserved < 0 ∨ row.incoming.getD 0 < 0)
    (invalid "Stock quantities cannot be negative")
  let store ← read (·.store)
  throwIf (¬ store.warehouses.any fun item => item.id = row.warehouseId)
    (notFound "Warehouse not found" [("warehouseId", .id row.warehouseId)])
  throwIf (store.getProduct row.productId).isNone
    (notFound "Product not found" [("productId", .id row.productId)])
  updateStore (Store.upsertStock row)

def deleteStock (warehouseId productId : Id) (actor : Actor) : Service PUnit := do
  throwIf (¬ canWriteProducts actor) (forbidden "You are not allowed to delete product stock")
  let store ← read (·.store)
  throwIf (¬ store.warehouses.any fun item => item.id = warehouseId)
    (notFound "Warehouse not found" [("warehouseId", .id warehouseId)])
  throwIf (store.getProduct productId).isNone
    (notFound "Product not found" [("productId", .id productId)])
  updateStore (Store.deleteStock warehouseId productId)

/-! ## Products -/

structure ProductStockInput where
  warehouseId : Id
  quantityOnHand : Num
  incoming : Option Num := none
  deriving DecidableEq, Repr

/-- A stock row that comes with a product starts unreserved. -/
def ProductStockInput.row (input : ProductStockInput) (productId : Id) : StockLevel where
  warehouseId := input.warehouseId
  productId := productId
  quantityOnHand := input.quantityOnHand
  reserved := 0
  incoming := some (input.incoming.getD 0)

structure ProductBreakInput where
  id : Option Id := none
  name : String
  customerTier : Option CustomerTier := none
  minQuantity : Num
  maxQuantity : Option Num := none
  adjustmentKind : QuantityAdjustmentKind
  adjustmentValue : Num
  active : Option Bool := none
  deriving DecidableEq, Repr

structure ProductInput where
  id : Option Id := none
  sku : Option String := none
  name : Option String := none
  category : Option String := none
  listPrice : Option Num := none
  cost : Option Num := none
  billingType : Option BillingType := none
  billingFrequency : Option BillingFrequency := none
  /-- The outer level says whether the field was sent, the inner one is its value. -/
  description : Option (Option String) := none
  taxCategory : Option (Option String) := none
  taxRatePercent : Option (Option Num) := none
  active : Option Bool := none
  taxable : Option Bool := none
  stock : Option (List ProductStockInput) := none
  quantityBreaks : Option (List ProductBreakInput) := none
  deriving DecidableEq, Repr

/-- The product an input describes over the current one, whose `odooProductId` is not kept. -/
def ProductInput.build (input : ProductInput) (current : Option Product) (id : Id) : Product :=
  let billingType := input.billingType.getD ((current.map (·.billingType)).getD .oneTime)
  let category := trim (input.category.getD ((current.map (·.category)).getD ""))
  { id
    sku := trim (input.sku.getD ((current.map (·.sku)).getD ""))
    name := trim (input.name.getD ((current.map (·.name)).getD ""))
    category := if category = "" then "general" else category
    listPrice := input.listPrice.getD ((current.map (·.listPrice)).getD 0)
    cost := input.cost.getD ((current.map (·.cost)).getD 0)
    billingType
    billingFrequency :=
      if billingType = .recurring then
        some (input.billingFrequency.getD ((current.bind (·.billingFrequency)).getD .monthly))
      else none
    description := input.description.getD (current.bind (·.description))
    taxCategory := input.taxCategory.getD (current.bind (·.taxCategory))
    taxRatePercent := input.taxRatePercent.getD (current.bind (·.taxRatePercent))
    active := some (input.active.getD ((current.bind (·.active)).getD true))
    taxable := some (input.taxable.getD ((current.bind (·.taxable)).getD true))
    createdAt := current.bind (·.createdAt)
    updatedAt := current.bind (·.updatedAt) }

/-- The checks on a product before it is stored; the sent tax rate is checked, not the kept one. -/
def checkProduct (platform : Platform) (store : Store) (input : ProductInput)
    (current : Option Product) (product : Product) : Service PUnit := do
  let sku := product.sku
  throwIf (sku = "" ∨ product.name = "") (invalid "Product SKU and name are required")
  throwIf (160 < (codeUnits product.name).length ∨ 80 < (codeUnits sku).length)
    (invalid "Product name or SKU is too long")
  throwIf (product.listPrice < 0 ∨ product.cost < 0)
    (invalid "Product price and cost cannot be negative")
  throwIf (input.taxRatePercent.any fun rate => rate.any notPercent)
    (invalid "Tax rate must be between 0 and 100")
  let own := input.id.or (current.map (·.id))
  throwIf (store.products.any fun item =>
      platform.toLowerCase item.sku = platform.toLowerCase sku && some item.id ≠ own)
    (conflict "SKU already exists. Please use a unique SKU." [("sku", .text sku)])

/-- Give every break of the input an id and the product. -/
def buildBreaks (productId : Id) (inputs : List ProductBreakInput) : Service (List QuantityBreak) := do
  let uuid ← randomUUIDs inputs.length
  return inputs.mapIdx fun index item =>
    { id := item.id.getD (uuid index)
      name := item.name
      productId
      customerTier := item.customerTier
      minQuantity := item.minQuantity
      maxQuantity := item.maxQuantity
      adjustmentKind := item.adjustmentKind
      adjustmentValue := item.adjustmentValue
      active := some (item.active ≠ some false) }

/-- Replace the breaks of one product, keeping the others. -/
def replaceProductBreaks (productId : Id) (inputs : List ProductBreakInput) (actor : Actor) :
    Service PUnit := do
  throwIf ((inputs.any fun item => item.adjustmentKind = .percent)
      ∧ ¬ actorHas (some actor) "dealflow.catalog.write")
    (forbidden "Percent quantity-break discounts require Admin catalog configuration")
  let store ← read (·.store)
  let added ← buildBreaks productId inputs
  let next ← lift (validateQuantityBreaks
    ((store.quantityBreaks.filter fun item => item.productId ≠ productId) ++ added))
  updateStore fun store => { store with quantityBreaks := next }

def replaceSentBreaks (productId : Id) (inputs : Option (List ProductBreakInput)) (actor : Actor) :
    Service PUnit :=
  match inputs with
  | some inputs => replaceProductBreaks productId inputs actor
  | none => pure PUnit.unit

/-- The current product an update names; a named product must exist. -/
def currentProduct (store : Store) (id : Option Id) : Except DomainError (Option Product) :=
  match id with
  | none => .ok none
  | some id =>
      match store.getProduct id with
      | none => .error (notFound "Product not found" [("id", .id id)])
      | some product => .ok (some product)

def upsertProduct (env : Env) (input : ProductInput) (actor : Actor) : Service Product := do
  throwIf (¬ canWriteProducts actor) (forbidden "You are not allowed to create or edit products")
  let store ← read (·.store)
  let current ← lift (currentProduct store input.id)
  let uuid ← randomUUID
  let product := input.build current (input.id.getD ((current.map (·.id)).getD uuid))
  checkProduct env.options.platform store input current product
  updateStore (Store.upsertProduct product)
  (input.stock.getD []).foldlM
    (fun (_ : PUnit) row => upsertStock (row.row product.id) actor) PUnit.unit
  replaceSentBreaks product.id input.quantityBreaks actor
  return product

def deleteProduct (id : Id) (actor : Actor) : Service PUnit := do
  throwIf (¬ canWriteProducts actor) (forbidden "You are not allowed to delete products")
  let store ← read (·.store)
  throwIf (store.getProduct id).isNone (notFound "Product not found" [("id", .id id)])
  throwIf (0 < store.countProductQuoteLines id)
    (conflict "Product is used on quotations. Archive it instead."
      [("id", .id id), ("quoteLines", .num (store.countProductQuoteLines id))])
  updateStore (Store.deleteProduct id)

/-! ## Customers -/

def editCustomer (env : Env) (input : CustomerInput) (actor : Actor) : Service Customer := do
  throwIf (¬ canManageCustomers actor)
    (forbidden "You are not allowed to create or edit customers")
  let name := trim input.name
  let email := trim input.email
  throwIf (name = "" ∨ email = "" ∨ '@' ∉ email.toList)
    (invalid "Customer name and a valid email are required")
  let store ← read (·.store)
  throwIf (input.id.any fun id => (store.getCustomer id).isNone)
    (notFound "Customer not found" [("id", (input.id.map .id).getD .missing)])
  upsertCustomer env.options.platform { input with name, email }

def deleteCustomer (id : Id) (actor : Actor) : Service PUnit := do
  throwIf (¬ canManageCustomers actor) (forbidden "You are not allowed to delete customers")
  let store ← read (·.store)
  throwIf (store.getCustomer id).isNone (notFound "Customer not found" [("id", .id id)])
  throwIf (0 < store.countCustomerQuotes id)
    (conflict
      "Customer is used on quotations and cannot be deleted. Edit the contact details instead."
      [("id", .id id), ("quotes", .num (store.countCustomerQuotes id))])
  updateStore (Store.deleteCustomer id)

/-- A customer account signs up: its row is created or renamed, and its tier follows the purchases
won. -/
def provisionCustomer (env : Env) (email displayName : String) (companyName : Option String) :
    Service Customer := do
  let orElse (s other : String) : String := if s = "" then other else s
  let customer ← upsertCustomer env.options.platform
    { name := orElse (trim (companyName.getD "")) (orElse (trim displayName) email), email }
  let store ← read (·.store)
  let tier := persistCustomerTier
    (wonPurchaseCountToTier (store.countWonPurchases customer.id)).text
  if persistCustomerTier customer.tier.text ≠ tier then
    upsertCustomer env.options.platform
      { name := customer.name, email := customer.email, tier := some tier }
  else return customer

/-! ## Policies, chains, warehouses and relations -/

def upsertPolicy (policy : DiscountPolicy) (actor : Actor) : Service PUnit := do
  assertCatalogWrite actor "You are not allowed to change discount policies"
  let uuid ← randomUUID
  updateStore (Store.upsertPolicy
    { policy with
      id := some (policy.id.getD uuid)
      name := trim policy.name
      active := some (policy.active ≠ some false) })

def deletePolicy (id : Id) (actor : Actor) : Service PUnit := do
  assertCatalogWrite actor "You are not allowed to delete discount policies"
  let store ← read (·.store)
  throwIf (¬ store.policies.any fun item => item.id = some id)
    (notFound "Policy not found" [("id", .id id)])
  updateStore (Store.deletePolicy id)

structure ChainInput where
  id : Option Id := none
  name : String
  minRiskScore : Num
  minBlendedDiscountPercent : Num
  priority : Num
  active : Option Bool := none
  steps : List ApprovalChainStep
  deriving DecidableEq, Repr

/-- Anyone the route lets through may write a chain; the steps take the chain's id. -/
def upsertChain (input : ChainInput) : Service PUnit := do
  let uuid ← randomUUID
  let id := input.id.getD uuid
  updateStore (Store.upsertChain
    { id
      name := trim input.name
      minRiskScore := input.minRiskScore
      minBlendedDiscountPercent := input.minBlendedDiscountPercent
      priority := input.priority
      active := some (input.active ≠ some false)
      steps := input.steps.map fun step => { step with chainId := id } })

def deleteChain (id : Id) (actor : Actor) : Service PUnit := do
  assertCatalogWrite actor "You are not allowed to delete approval chains"
  let store ← read (·.store)
  throwIf (¬ store.chains.any fun item => item.id = id)
    (notFound "Approval chain not found" [("id", .id id)])
  throwIf (0 < store.countChainApprovals id)
    (conflict "Approval chain is used on quotations. Archive it instead."
      [("id", .id id), ("usages", .num (store.countChainApprovals id))])
  updateStore (Store.deleteChain id)

def upsertWarehouse (id : Option Id) (name : String) (fulfillmentCostPerUnit : Num)
    (actor : Actor) : Service PUnit := do
  assertCatalogWrite actor "You are not allowed to create or edit warehouses"
  throwIf (trim name = "") (invalid "Warehouse name is required")
  throwIf (fulfillmentCostPerUnit < 0) (invalid "Fulfillment cost cannot be negative")
  let store ← read (·.store)
  throwIf (id.any fun id => ¬ store.warehouses.any fun item => item.id = id)
    (notFound "Warehouse not found" [("id", (id.map .id).getD .missing)])
  let uuid ← randomUUID
  updateStore (Store.upsertWarehouse
    { id := id.getD uuid, name := trim name, fulfillmentCostPerUnit })

def deleteWarehouse (id : Id) (actor : Actor) : Service PUnit := do
  assertCatalogWrite actor "You are not allowed to delete warehouses"
  let store ← read (·.store)
  throwIf (¬ store.warehouses.any fun item => item.id = id)
    (notFound "Warehouse not found" [("id", .id id)])
  throwIf (0 < store.countWarehouseAllocations id)
    (conflict "Warehouse is used by fulfillment and cannot be deleted."
      [("id", .id id), ("allocations", .num (store.countWarehouseAllocations id))])
  updateStore (Store.deleteWarehouse id)

structure RelationInput where
  id : Option Id := none
  productId : Id
  recommendedProductId : Id
  kind : RelationKind
  reason : String
  promotion : Option String := none
  minQuantity : Option Num := none
  deriving DecidableEq, Repr

def upsertRelation (input : RelationInput) (actor : Actor) : Service PUnit := do
  assertCatalogWrite actor "You are not allowed to change product recommendations"
  let store ← read (·.store)
  throwIf ((store.getProduct input.productId).isNone
      ∨ (store.getProduct input.recommendedProductId).isNone)
    (notFound "Product not found for this recommendation")
  throwIf (input.productId = input.recommendedProductId)
    (invalid "A product cannot recommend itself")
  throwIf (trim input.reason = "") (invalid "Recommendation reason is required")
  let uuid ← randomUUID
  updateStore (Store.upsertRelation
    { id := input.id.getD uuid
      productId := input.productId
      recommendedProductId := input.recommendedProductId
      kind := input.kind
      reason := trim input.reason
      promotion := input.promotion
      minQuantity := input.minQuantity.getD 1 })

def deleteRelation (id : Id) (actor : Actor) : Service PUnit := do
  assertCatalogWrite actor "You are not allowed to delete product recommendations"
  let store ← read (·.store)
  throwIf (¬ store.relations.any fun item => item.id = id)
    (notFound "Recommendation not found" [("id", .id id)])
  updateStore (Store.deleteRelation id)

end DealFlow360
