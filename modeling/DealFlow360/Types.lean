import DealFlow360.Js

/-!
# The data of a deal

Quotes, the catalog they are priced against, and the rules that govern them.
Optional fields are `Option`; a missing and a null field are the same `none`.

The records follow the source's interfaces field by field, with the
enumerations as inductive types in the source's order. Of what no modelled
function reads (notes, display texts, audit fields) the records leave out the
fields. Quantities, prices and percentages are numbers of the platform, and the
times are milliseconds.
-/

namespace DealFlow360

/-! ## Enumerations -/

inductive CustomerTier where
  | standard | silver | gold | strategic | platinum
  deriving DecidableEq, Repr

inductive BillingType where
  | oneTime | recurring
  deriving DecidableEq, Repr

inductive BillingFrequency where
  | monthly | quarterly | yearly
  deriving DecidableEq, Repr

inductive QuoteStatus where
  | draft | approvalRequired | approved | customerNegotiation | managerReview | finalized
  | confirmed | fulfillment | billing | completed | rejected
  deriving DecidableEq, Repr

inductive DiscountDecision where
  | allowed | warning | approvalRequired | rejected
  deriving DecidableEq, Repr

inductive ApprovalStatus where
  | pending | approved | rejected | skipped | invalidated
  deriving DecidableEq, Repr

inductive ApprovalDecision where
  | approved | rejected
  deriving DecidableEq, Repr

inductive BillingStatus where
  | scheduled | invoiced | cancelled
  deriving DecidableEq, Repr

inductive RelationKind where
  | upsell | crossSell
  deriving DecidableEq, Repr

inductive ApprovalRoleKey where
  | manager | finance | final
  deriving DecidableEq, Repr

inductive CustomerDecision where
  | none | accepted | declined
  deriving DecidableEq, Repr

inductive QuoteEmailEvent where
  | prelimInvoice | finalInvoice
  deriving DecidableEq, Repr

inductive QuoteEmailStatus where
  | pending | notConfigured | sent | failed
  deriving DecidableEq, Repr

inductive NegotiationStatus where
  | opened | inReview | sentToManager | managerRevised | returnedToCustomer | accepted | rejected
  | resolved | agreed | withdrawn
  deriving DecidableEq, Repr

inductive NegotiationRequestType where
  | question | quantityChange | productChange | removal | pricing | discount | general
  deriving DecidableEq, Repr

inductive RequestedAction where
  | add | remove | update
  deriving DecidableEq, Repr

inductive QuantityAdjustmentKind where
  | fixed | percent
  deriving DecidableEq, Repr

inductive AuthorityExceedAction where
  | allow | approval | block
  deriving DecidableEq, Repr

/-- The wire text of a status, as the messages show it. -/
def QuoteStatus.text : QuoteStatus → String
  | draft => "draft"
  | approvalRequired => "approval_required"
  | approved => "approved"
  | customerNegotiation => "customer_negotiation"
  | managerReview => "manager_review"
  | finalized => "finalized"
  | confirmed => "confirmed"
  | fulfillment => "fulfillment"
  | billing => "billing"
  | completed => "completed"
  | rejected => "rejected"

def ApprovalStatus.text : ApprovalStatus → String
  | pending => "pending"
  | approved => "approved"
  | rejected => "rejected"
  | skipped => "skipped"
  | invalidated => "invalidated"

def ApprovalDecision.text : ApprovalDecision → String
  | approved => "approved"
  | rejected => "rejected"

/-- The status a decided step takes. -/
def ApprovalDecision.status : ApprovalDecision → ApprovalStatus
  | approved => .approved
  | rejected => .rejected

def DiscountDecision.text : DiscountDecision → String
  | allowed => "allowed"
  | warning => "warning"
  | approvalRequired => "approval_required"
  | rejected => "rejected"

def ApprovalRoleKey.text : ApprovalRoleKey → String
  | manager => "manager"
  | finance => "finance"
  | final => "final"

/-! ## Actors and the catalog -/

structure Actor where
  id : String
  email : Option String := none
  role : Option String := none
  roles : List String := []
  permissions : List String := []
  deriving DecidableEq, Repr

structure Customer where
  id : Id
  name : String
  email : String
  tier : CustomerTier
  deriving DecidableEq, Repr

structure Product where
  id : Id
  sku : String
  name : String
  category : String
  listPrice : Num
  cost : Num
  billingType : BillingType
  billingFrequency : Option BillingFrequency := none
  description : Option String := none
  taxCategory : Option String := none
  taxRatePercent : Option Num := none
  active : Option Bool := none
  taxable : Option Bool := none
  odooProductId : Option ℕ := none
  createdAt : Option Timestamp := none
  updatedAt : Option Timestamp := none
  deriving DecidableEq, Repr

structure ProductRelation where
  id : Id
  productId : Id
  recommendedProductId : Id
  kind : RelationKind
  reason : String
  promotion : Option String := none
  minQuantity : Num
  deriving DecidableEq, Repr

structure Warehouse where
  id : Id
  name : String
  fulfillmentCostPerUnit : Num
  deriving DecidableEq, Repr

structure StockLevel where
  warehouseId : Id
  productId : Id
  quantityOnHand : Num
  reserved : Num
  incoming : Option Num := none
  deriving DecidableEq, Repr

structure DiscountPolicy where
  /-- `none` is the policy no row carries, `implicit-default`. -/
  id : Option Id
  name : String
  customerTier : Option CustomerTier := none
  productCategory : Option String := none
  warningPercent : Num
  approvalPercent : Num
  rejectPercent : Num
  maxMarginImpactPercent : Num
  priority : Num
  description : Option String := none
  active : Option Bool := none
  deriving DecidableEq, Repr

structure QuantityBreak where
  id : Id
  name : String
  productId : Id
  customerTier : Option CustomerTier := none
  minQuantity : Num
  maxQuantity : Option Num := none
  adjustmentKind : QuantityAdjustmentKind
  adjustmentValue : Num
  active : Option Bool := none
  deriving DecidableEq, Repr

structure RoleAuthority where
  roleKey : String
  maxDiscountPercent : Num
  minMarginPercent : Num
  maxPriceOverridePercent : Num
  canNegotiate : Bool
  exceedAction : AuthorityExceedAction
  deriving DecidableEq, Repr

structure ApprovalChainStep where
  id : Id
  chainId : Id
  stepOrder : Num
  roleKey : ApprovalRoleKey
  label : String
  deriving DecidableEq, Repr

structure ApprovalChain where
  id : Id
  name : String
  minRiskScore : Num
  minBlendedDiscountPercent : Num
  priority : Num
  active : Option Bool := none
  steps : List ApprovalChainStep
  deriving DecidableEq, Repr

structure GovernanceConfig where
  cumulativeWarningLimit : Num
  materialDiscountDeltaPp : Num
  materialTotalDeltaRatio : Num
  highValueNetTotal : Num
  maxApprovalLevels : Num
  taxRatePercent : Num
  staleQuoteDays : Num
  unusualDiscountPercent : Num
  largeDealNetTotal : Num
  maxCommercialDiscountPercent : Num
  allowLoyaltyStacking : Bool
  deriving DecidableEq, Repr

def defaultGovernance : GovernanceConfig where
  cumulativeWarningLimit := 2
  materialDiscountDeltaPp := 2
  materialTotalDeltaRatio := 1 / 10
  highValueNetTotal := 25000
  maxApprovalLevels := 3
  taxRatePercent := 0
  staleQuoteDays := 7
  unusualDiscountPercent := 25
  largeDealNetTotal := 50000
  maxCommercialDiscountPercent := 25
  allowLoyaltyStacking := true

/-! ## The quote and what hangs off it -/

structure QuoteLine where
  id : Id
  quoteId : Id
  productId : Id
  quantity : Num
  listPrice : Num
  discountPercent : Num
  unitCost : Num
  recommendedFromId : Option Id := none
  deriving DecidableEq, Repr

structure Quote where
  id : Id
  number : String
  customerId : Id
  ownerId : Option String := none
  status : QuoteStatus
  listTotal : Num
  discountTotal : Num
  netTotal : Num
  costTotal : Num
  marginPercent : Num
  blendedDiscountPercent : Num
  riskScore : Num
  assessmentDecision : DiscountDecision
  requiredChainId : Option Id := none
  portalToken : Id
  version : ℕ
  odooSaleOrderId : Option ℕ := none
  taxTotal : Num
  customerDecision : CustomerDecision
  customerDecisionAt : Option Timestamp := none
  customerDecisionComment : Option String := none
  customerDecisionVersion : Option ℕ := none
  commerciallyFrozenAt : Option Timestamp := none
  commerciallyFrozenBy : Option String := none
  financeLockedAt : Option Timestamp := none
  financeLockedBy : Option String := none
  activeNegotiationId : Option Id := none
  createdAt : Timestamp
  updatedAt : Timestamp
  deriving DecidableEq, Repr

/-- What a decision records about the quote before and after it. -/
structure ApprovalValues where
  status : Option QuoteStatus := none
  riskScore : Option Num := none
  decision : Option ApprovalDecision := none
  deriving DecidableEq, Repr

structure QuoteApproval where
  id : Id
  quoteId : Id
  chainId : Id
  stepOrder : Num
  roleKey : ApprovalRoleKey
  label : String
  status : ApprovalStatus
  actorId : Option String := none
  decidedAt : Option Timestamp := none
  decision : Option String := none
  reason : Option String := none
  previousValues : Option ApprovalValues := none
  newValues : Option ApprovalValues := none
  deriving DecidableEq, Repr

structure FulfillmentSplit where
  id : Id
  quoteId : Id
  quoteLineId : Id
  warehouseId : Id
  quantity : Num
  unitFulfillmentCost : Num
  isBackorder : Bool
  isManualOverride : Bool
  deriving DecidableEq, Repr

structure Backorder where
  id : Id
  quoteId : Id
  productId : Id
  quantity : Num
  deriving DecidableEq, Repr

structure BillingSchedule where
  id : Id
  quoteId : Id
  quoteLineId : Id
  billingType : BillingType
  frequency : Option BillingFrequency := none
  amount : Num
  status : BillingStatus
  nextBillingAt : Option Timestamp := none
  cancelledAt : Option Timestamp := none
  prorationAmount : Num
  refundAmount : Num
  deriving DecidableEq, Repr

structure RevisionSnapshot where
  status : QuoteStatus
  lines : List QuoteLine
  blendedDiscountPercent : Num
  netTotal : Num
  deriving DecidableEq, Repr

structure QuoteRevision where
  id : Id
  quoteId : Id
  version : ℕ
  snapshot : RevisionSnapshot
  materialChange : Bool
  createdBy : Option String := none
  createdAt : Timestamp
  deriving DecidableEq, Repr

structure QuoteAggregate where
  quote : Quote
  customer : Customer
  lines : List QuoteLine
  products : List Product
  approvals : List QuoteApproval
  allocations : List FulfillmentSplit
  backorders : List Backorder
  schedules : List BillingSchedule
  revisions : List QuoteRevision
  deriving DecidableEq, Repr

/-! ## Negotiations and customer emails -/

structure NegotiationRequestedLine where
  productId : Option Id := none
  lineId : Option Id := none
  quantity : Option Num := none
  discountPercent : Option Num := none
  action : Option RequestedAction := none
  requestType : Option NegotiationRequestType := none
  comment : Option String := none
  originalQuantity : Option Num := none
  originalDiscountPercent : Option Num := none
  deriving DecidableEq, Repr

structure NegotiationRequest where
  id : Id
  quoteId : Id
  customerId : Id
  actorId : Option String := none
  actorRole : Option String := none
  requestedDiscountPercent : Option Num := none
  requestedTargetAmount : Option Num := none
  requestedLines : List NegotiationRequestedLine
  note : String
  quoteVersion : Option ℕ := none
  responseNote : Option String := none
  respondedBy : Option String := none
  respondedAt : Option Timestamp := none
  status : NegotiationStatus
  createdAt : Timestamp
  updatedAt : Timestamp
  deriving DecidableEq, Repr

structure QuoteEmailLine where
  sku : String
  name : String
  quantity : Num
  unitPrice : Num
  discountPercent : Num
  lineNet : Num
  billingType : BillingType
  billingFrequency : Option BillingFrequency
  deriving DecidableEq, Repr

structure QuoteEmailDocument where
  kind : QuoteEmailEvent
  customerName : String
  quoteNumber : String
  quoteVersion : ℕ
  status : QuoteStatus
  approvalStatus : String
  lines : List QuoteEmailLine
  listTotal : Num
  discountTotal : Num
  taxTotal : Num
  netTotal : Num
  grandTotal : Num
  payableAmount : Num
  recurringMonthly : Num
  recurringAnnual : Num
  financeLocked : Bool
  deriving DecidableEq, Repr

structure QuoteEmailDelivery where
  id : Id
  quoteId : Id
  eventType : QuoteEmailEvent
  quoteVersion : ℕ
  recipientEmail : String
  status : QuoteEmailStatus
  idempotencyKey : String
  notificationDeliveryId : Option String := none
  provider : Option String := none
  providerMessageId : Option String := none
  errorMessage : Option String := none
  payload : QuoteEmailDocument
  sentAt : Option Timestamp := none
  createdAt : Timestamp
  updatedAt : Timestamp
  deriving DecidableEq, Repr

end DealFlow360
