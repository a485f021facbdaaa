import DealFlow360.Billing
import DealFlow360.Service

/-!
# Operations on quotes

An operation that edits a stored quote loads it, checks and edits its own copy,
re-assesses and saves the copy, and answers; `Mutation` keeps these parts
apart. Creating and deleting a quote, and the operations that only read, are
programs of their own. An actor that only the audit record names is no argument
here.

The bodies follow the service statement by statement: which check comes first,
what is read again after a write, which error a refusal throws. Amounts and
quantities are computed at the exact instance, but for the plan and the
consumption of stock, which are rounded as the platform rounds them. Approval,
negotiation, portal, locking, fulfillment and billing each have a section with
their helpers before their operations.
-/

namespace DealFlow360

open Program

structure Mutation where
  /-- What comes before and with the load. -/
  load : Service QuoteAggregate
  /-- The checks and the edit of the loaded copy; `none` answers without a save. -/
  edit : QuoteAggregate → Service (Option QuoteAggregate)
  /-- The answer where nothing is saved. -/
  idle : QuoteAggregate → Service QuoteAggregate
  /-- The answer after the save. -/
  tail : QuoteAggregate → Service QuoteAggregate

/-- What comes after the load. -/
def Mutation.finish (env : Env) (mutation : Mutation) (loaded : QuoteAggregate) :
    Service QuoteAggregate := do
  let edited ← mutation.edit loaded
  match edited with
  | none => mutation.idle loaded
  | some aggregate => do
      let saved ← saveAssessed env aggregate
      mutation.tail saved

def Mutation.run (env : Env) (mutation : Mutation) : Service QuoteAggregate := do
  let loaded ← mutation.load
  mutation.finish env loaded

/-- A mutation that always saves and answers with the decorated quote. -/
def Mutation.saving (env : Env) (load : Service QuoteAggregate)
    (edit : QuoteAggregate → Service QuoteAggregate)
    (tail : QuoteAggregate → Service PUnit := fun _ => pure PUnit.unit) : Mutation where
  load := load
  edit := fun aggregate => some <$> edit aggregate
  idle := decorate env
  tail := fun saved => do
    tail saved
    decorate env saved

/-- Mail the customer and ignore the record. -/
def mailing (env : Env) (eventType : QuoteEmailEvent) (saved : QuoteAggregate) : Service PUnit := do
  let _ ← dispatchCustomerQuoteEmail env saved eventType

/-! ## Lines -/

structure LineInput where
  productId : Id
  quantity : Num
  discountPercent : Num
  deriving DecidableEq, Repr

/-- A new line; its price is asked for without the customer's tier. -/
def toLine (quoteId : Id) (input : LineInput) : Service QuoteLine := do
  throwIf (input.quantity ≤ 0) (invalid "Quantity must be greater than zero")
  throwIf (input.discountPercent < 0 ∨ 100 < input.discountPercent)
    (invalid "Discount percent must be between 0 and 100")
  let store ← read (·.store)
  let product ← orThrow (store.getProduct input.productId)
    (notFound "Product not found" [("productId", .id input.productId)])
  throwIf (product.active = some false)
    (invalid "Product is inactive" [("productId", .id input.productId)])
  let id ← randomUUID
  return {
    id
    quoteId
    productId := product.id
    quantity := input.quantity
    listPrice := (resolveUnitPrice product input.quantity store.quantityBreaks none).unitPrice
    discountPercent := input.discountPercent
    unitCost := product.cost }

/-- Mutate the line an id finds. -/
def editLine (lineId : Id) (f : QuoteLine → QuoteLine) (lines : List QuoteLine) : List QuoteLine :=
  Table.modifyFirst (fun line => decide (line.id = lineId)) f lines

def findLine (lines : List QuoteLine) (lineId : Id) : Option QuoteLine :=
  Table.lookup QuoteLine.id lineId lines

def withLines (aggregate : QuoteAggregate) (lines : List QuoteLine) : QuoteAggregate :=
  { aggregate with lines }

/-- The rule price of a product for the quote's customer. -/
def rulePriceFor (store : Store) (tier : CustomerTier) (product : Product) (quantity : Num) : Num :=
  (resolveUnitPrice product quantity store.quantityBreaks (some tier)).unitPrice

/-- The end of every commercial edit: reapproval, version, revision. -/
def settleEdit (env : Env) (aggregate : QuoteAggregate) (before : Standing) (actor : Actor) :
    Service QuoteAggregate := do
  let reapprove ← maybeReapprove env.options aggregate before
  finishMutation env reapprove.1 actor reapprove.2

def addLine (env : Env) (quoteId : Id) (input : LineInput) (expectedVersion : ℕ) (actor : Actor) :
    Mutation :=
  .saving env (load quoteId) fun aggregate => do
    assertExpectedVersion aggregate expectedVersion
    assertCommercialWrite env.options aggregate actor [input.discountPercent] []
    let line ← toLine quoteId input
    settleEdit env (withLines aggregate (aggregate.lines ++ [line])) aggregate.standing actor

structure LineUpdate where
  productId : Option Id := none
  quantity : Option Num := none
  discountPercent : Option Num := none
  unitPrice : Option Num := none
  deriving DecidableEq, Repr

/-- The quantity and discount of an update, on a copy of the line. -/
def LineUpdate.restate (input : LineUpdate) (line : QuoteLine) : QuoteLine :=
  { line with
    quantity := input.quantity.getD line.quantity
    discountPercent := input.discountPercent.getD line.discountPercent }

/-- The price of an updated line: a new product is priced like a new line, a stated price stands,
a changed quantity takes the rule price. -/
def LineUpdate.reprice (input : LineUpdate) (quoteId : Id) (rulePrice : Num) (line : QuoteLine) :
    Service QuoteLine :=
  match input.productId.filter fun productId => productId ≠ line.productId with
  | some productId => do
      let replacement ← toLine quoteId
        { productId, quantity := line.quantity, discountPercent := line.discountPercent }
      return { line with
        productId := replacement.productId
        listPrice := replacement.listPrice
        unitCost := replacement.unitCost }
  | none =>
      match input.unitPrice with
      | some unitPrice => return { line with listPrice := unitPrice }
      | none => return if input.quantity.isSome then { line with listPrice := rulePrice } else line

def updateLine (env : Env) (quoteId lineId : Id) (input : LineUpdate) (expectedVersion : ℕ)
    (actor : Actor) : Mutation :=
  .saving env (load quoteId) fun aggregate => do
    assertExpectedVersion aggregate expectedVersion
    let found ← orThrow (findLine aggregate.lines lineId)
      (notFound "Quote line not found" [("lineId", .id lineId)])
    let line := input.restate found
    throwIf (input.unitPrice.any (· < 0)) (invalid "Unit price cannot be negative")
    let store ← read (·.store)
    let rulePrice :=
      match store.getProduct line.productId with
      | some product => rulePriceFor store aggregate.customer.tier product line.quantity
      | none => line.listPrice
    let line ← input.reprice quoteId rulePrice line
    let edited := withLines aggregate (editLine lineId (fun _ => line) aggregate.lines)
    assertCommercialWrite env.options edited actor [line.discountPercent]
      (if input.unitPrice.isSome then [{ rulePrice, appliedPrice := line.listPrice }] else [])
    settleEdit env edited aggregate.standing actor

def removeLine (env : Env) (quoteId lineId : Id) (expectedVersion : ℕ) (actor : Actor) :
    Mutation :=
  .saving env (load quoteId) fun aggregate => do
    assertExpectedVersion aggregate expectedVersion
    assertCommercialWrite env.options aggregate actor [] []
    settleEdit env (withLines aggregate (aggregate.lines.filter fun item => item.id ≠ lineId))
      aggregate.standing actor

/-- The relation and the offer behind an applied recommendation. -/
def findRecommendation (store : Store) (lines : List QuoteLine) (relationId : Id) :
    Except DomainError ProductRelation :=
  match store.relations.find? fun item => item.id = relationId with
  | none =>
      .error (notFound "Recommendation rule not found" [("relationId", .id relationId)])
  | some relation =>
      if (recommendProducts lines store.products store.relations).any
          fun item => item.relationId = relationId then .ok relation
      else .error (conflict "Recommendation is not applicable to the current quote")

def applyRecommendation (env : Env) (quoteId relationId : Id) (actor : Actor)
    (expectedVersion : ℕ) : Mutation :=
  .saving env (load quoteId) fun aggregate => do
    assertExpectedVersion aggregate expectedVersion
    assertCommercialWrite env.options aggregate actor [0] []
    let store ← read (·.store)
    let relation ← lift (findRecommendation store aggregate.lines relationId)
    let line ← toLine quoteId
      { productId := relation.recommendedProductId, quantity := 1, discountPercent := 0 }
    let line := { line with recommendedFromId := some relation.id }
    settleEdit env (withLines aggregate (aggregate.lines ++ [line])) aggregate.standing actor

/-! ## Approval -/

def submit (env : Env) (quoteId : Id) (actor : Actor) : Mutation :=
  .saving env (load quoteId)
    (fun aggregate => do
      let status := aggregate.quote.status
      throwIf (status ≠ .finalized)
        (conflict s!"Only finalized quotations can be submitted for approval (status {status.text})")
      throwIf (aggregate.lines.length = 0)
        (invalid "A quote needs at least one line before submit")
      let refreshed ← refreshAssessment env.options aggregate
      let assessment := refreshed.2
      throwIf (assessment.decision = .rejected)
        (conflict "Quote exceeds reject ceilings and cannot be submitted"
          [("reasons", .texts assessment.reasons)])
      let store ← read (·.store)
      let chain := findChain store assessment
      let maxLevels := (env.options.governanceOf store).maxApprovalLevels
      let uuid ← randomUUIDs ((chain.map fun chain => (chainLevels chain maxLevels).length).getD 0)
      let approvals ← lift
        (autoApproveIfAllowed uuid env.now quoteId assessment chain actor maxLevels)
      moveTo (bumpVersion { refreshed.1 with approvals })
        (if assessment.decision = .allowed ∨ assessment.decision = .warning then .approved
         else .approvalRequired))
    (fun saved => if saved.quote.status = .approved then mailing env .prelimInvoice saved
      else pure PUnit.unit)

/-- `decide`. -/
def decideApproval (env : Env) (quoteId approvalId : Id) (decision : ApprovalDecision) (reason : String)
    (actor : Actor) : Mutation :=
  .saving env (load quoteId)
    (fun aggregate => do
      let status := aggregate.quote.status
      throwIf (status ≠ .approvalRequired) (conflict "Quote is not waiting for approval")
      let approvals ← lift (applyApprovalDecision aggregate.approvals
        { approvalId, actor, decision, reason
          previousValues := { status := some status, riskScore := some aggregate.quote.riskScore }
          newValues := { decision := some decision }
          now := env.now })
      let aggregate ← moveTo { aggregate with approvals }
        (if decision = .rejected then .rejected
         else if allRequiredApproved approvals then .approved
         else status)
      return bumpVersion aggregate)
    (fun saved => do
      let store ← read (·.store)
      let decided := saved.approvals.find? fun item => item.id = approvalId
      let alreadyPrelim := (store.listQuoteEmails saved.quote.id).any
        fun item => item.eventType = .prelimInvoice
      if decision = .approved ∧ (decided.any (fun item => item.roleKey = .manager) ∨
          (saved.quote.status = .approved ∧ ¬ alreadyPrelim)) then mailing env .prelimInvoice saved
      else pure PUnit.unit)

/-! ## Negotiation -/

def startNegotiation (env : Env) (quoteId : Id) (actor : Actor) : Mutation :=
  .saving env (load quoteId) fun aggregate => do
    let store ← read (·.store)
    throwIf ((selectRoleAuthority store.roleAuthorities (some actor)).any (¬ ·.canNegotiate))
      (forbidden "Your role is not authorized to open customer negotiation")
    throwIf (aggregate.quote.status ≠ .draft ∧ aggregate.quote.status ≠ .rejected)
      (conflict "Only draft quotations can be opened for customer negotiation")
    let aggregate ← moveTo aggregate .customerNegotiation
    return bumpVersion aggregate

structure NegotiationInput where
  expectedVersion : Option ℕ := none
  note : String
  requestedDiscountPercent : Option Num := none
  requestedTargetAmount : Option Num := none
  requestedLines : List NegotiationRequestedLine := []
  actorId : Option String := none
  actorRole : Option String := none
  deriving DecidableEq, Repr

/-- The line a requested change is about. -/
def requestedOf (lines : List QuoteLine) (line : NegotiationRequestedLine) : Option QuoteLine :=
  line.lineId.bind (findLine lines)

/-- A requested change with the terms it starts from. -/
def rememberOriginal (lines : List QuoteLine) (line : NegotiationRequestedLine) :
    NegotiationRequestedLine :=
  let current := requestedOf lines line
  { line with
    originalQuantity := line.originalQuantity.or (current.map (·.quantity))
    originalDiscountPercent := line.originalDiscountPercent.or (current.map (·.discountPercent)) }

/-- The quantity a requested change asks for, written onto its line. -/
def setRequestedQuantity (lines : List QuoteLine) (line : NegotiationRequestedLine) :
    List QuoteLine :=
  match line.lineId, line.action with
  | none, _ => lines
  | some _, some .remove => lines
  | some lineId, _ =>
      editLine lineId (fun current =>
        { current with quantity := line.quantity.getD current.quantity }) lines

/-- Whether the request comes from the customer's side, who may restate quantities. -/
def isCustomerRole (role : Option String) : Bool := role = some "customer" || role = some "user"

/-- The version check of a request that may leave the version out. -/
def assertVersionIfSent (aggregate : QuoteAggregate) (expectedVersion : Option ℕ) : Service PUnit :=
  match expectedVersion with
  | some expectedVersion => assertExpectedVersion aggregate expectedVersion
  | none => pure PUnit.unit

def setActiveNegotiation (aggregate : QuoteAggregate) (id : Id) : QuoteAggregate :=
  { aggregate with quote := { aggregate.quote with activeNegotiationId := some id } }

def createNegotiationRequest (env : Env) (quoteId : Id) (input : NegotiationInput)
    (actor : Option Actor) : Mutation :=
  .saving env (load quoteId) fun aggregate => do
    let status := aggregate.quote.status
    assertVersionIfSent aggregate input.expectedVersion
    throwIf (status ≠ .draft ∧ status ≠ .customerNegotiation)
      (conflict "Negotiation notes can only be attached to an open quotation"
        [("status", .text status.text)])
    let store ← read (·.store)
    throwIf ((store.listNegotiations quoteId).any fun item => item.status = .opened)
      (conflict "A negotiation request is already open for this quotation"
        [("quoteId", .id quoteId), ("status", .text "open")])
    let aggregate ← moveTo aggregate .customerNegotiation
    let role := input.actorRole.or (actor.bind (·.role))
    let requestedLines := input.requestedLines.map (rememberOriginal aggregate.lines)
    let lines := if isCustomerRole role then
      requestedLines.foldl setRequestedQuantity aggregate.lines else aggregate.lines
    let id ← randomUUID
    let request : NegotiationRequest :=
      { id
        quoteId
        customerId := aggregate.customer.id
        actorId := input.actorId.or (actor.map (·.id))
        actorRole := some (role.getD "customer")
        requestedDiscountPercent := input.requestedDiscountPercent
        requestedTargetAmount := input.requestedTargetAmount
        requestedLines
        note := trim input.note
        quoteVersion := some aggregate.quote.version
        status := .opened
        createdAt := env.now
        updatedAt := env.now }
    updateStore (Store.saveNegotiation request)
    return bumpVersion (setActiveNegotiation (withLines aggregate lines) request.id)

/-- The negotiation of a quote, or the refusal that names it. -/
def findNegotiation (store : Store) (quoteId negotiationId : Id) :
    Except DomainError NegotiationRequest :=
  match (store.getNegotiation negotiationId).filter fun request => request.quoteId = quoteId with
  | some request => .ok request
  | none =>
      .error (notFound "Negotiation request not found" [("negotiationId", .id negotiationId)])

inductive NegotiationResponse where
  | accepted | rejected | inReview
  deriving DecidableEq, Repr

def NegotiationResponse.status : NegotiationResponse → NegotiationStatus
  | accepted => .accepted
  | rejected => .rejected
  | inReview => .inReview

/-- An accepted change: its quantity as it stands, its discount only within the actor's authority. -/
def acceptRequested (env : Env) (aggregate : QuoteAggregate) (actor : Actor)
    (lines : List QuoteLine) (line : NegotiationRequestedLine) : Service (List QuoteLine) :=
  if (requestedOf lines line).isNone ∨ line.action = some .remove then return lines
  else
    let lines := setRequestedQuantity lines line
    match line.lineId, line.discountPercent with
    | some lineId, some discountPercent => do
        assertCommercialWrite env.options aggregate actor [discountPercent] []
        return editLine lineId (fun current => { current with discountPercent }) lines
    | _, _ => return lines

def respondToNegotiation (env : Env) (quoteId negotiationId : Id) (decision : NegotiationResponse)
    (responseNote : String) (expectedVersion : ℕ) (actor : Actor) : Mutation :=
  .saving env (load quoteId) fun aggregate => do
    assertExpectedVersion aggregate expectedVersion
    let store ← read (·.store)
    let request ← lift (findNegotiation store quoteId negotiationId)
    let lines ← (if decision = .accepted then
        request.requestedLines.foldlM (acceptRequested env aggregate actor) aggregate.lines
      else pure aggregate.lines)
    updateStore (Store.saveNegotiation
      { request with
        status := decision.status
        responseNote := some (trim responseNote)
        respondedBy := some actor.id
        respondedAt := some env.now
        updatedAt := env.now })
    return bumpVersion (setActiveNegotiation (withLines aggregate lines) request.id)

/-- Move a negotiation to a status. -/
def markNegotiation (env : Env) (request : NegotiationRequest) (status : NegotiationStatus) :
    Service PUnit :=
  updateStore (Store.saveNegotiation { request with status, updatedAt := env.now })

def markIfFound (env : Env) (request : Option NegotiationRequest) (status : NegotiationStatus) :
    Service PUnit :=
  match request with
  | some request => markNegotiation env request status
  | none => pure PUnit.unit

/-- Hand a named negotiation over to the manager along with its quote. -/
def handOver (env : Env) (aggregate : QuoteAggregate) (negotiationId : Option Id) :
    Service QuoteAggregate :=
  match negotiationId with
  | none => return aggregate
  | some negotiationId => do
      let store ← read (·.store)
      let request ← lift (findNegotiation store aggregate.id negotiationId)
      markNegotiation env request .sentToManager
      return setActiveNegotiation aggregate request.id

def sendNegotiationToManager (env : Env) (quoteId : Id) (negotiationId : Option Id)
    (expectedVersion : ℕ) : Mutation :=
  .saving env (load quoteId) fun aggregate => do
    let status := aggregate.quote.status
    assertExpectedVersion aggregate expectedVersion
    throwIf (status ≠ .draft ∧ status ≠ .customerNegotiation)
      (conflict "Only an open quotation can be sent to a manager" [("status", .text status.text)])
    let aggregate ← moveTo aggregate .managerReview
    let aggregate ← handOver env aggregate negotiationId
    return bumpVersion aggregate

structure ManagerChange where
  lineId : Id
  quantity : Option Num := none
  discountPercent : Option Num := none
  productId : Option Id := none
  deriving DecidableEq, Repr

/-- A manager's change to its line: a product that is not in the catalog leaves price and product
as they are. -/
def ManagerChange.apply (store : Store) (tier : CustomerTier) (change : ManagerChange)
    (line : QuoteLine) : QuoteLine :=
  let line :=
    { line with
      quantity := change.quantity.getD line.quantity
      discountPercent := change.discountPercent.getD line.discountPercent }
  match store.getProduct (change.productId.getD line.productId) with
  | none => line
  | some product =>
      let line :=
        if change.productId.any fun productId => productId ≠ line.productId then
          { line with productId := product.id, unitCost := product.cost }
        else line
      { line with listPrice := rulePriceFor store tier product line.quantity }

/-- One change of a revision, and the discount its line ends up with. -/
def reviseLine (store : Store) (tier : CustomerTier) (revised : List QuoteLine × List Num)
    (change : ManagerChange) : Except DomainError (List QuoteLine × List Num) :=
  match findLine revised.1 change.lineId with
  | none => .error (notFound "Quote line not found" [("lineId", .id change.lineId)])
  | some line =>
      .ok (editLine change.lineId (change.apply store tier) revised.1,
        revised.2 ++ [change.discountPercent.getD line.discountPercent])

def reviseAsManager (env : Env) (quoteId : Id) (changes : List ManagerChange)
    (expectedVersion : ℕ) (actor : Actor) : Mutation :=
  .saving env (do assertManagerActor actor; load quoteId) fun aggregate => do
    assertExpectedVersion aggregate expectedVersion
    throwIf (aggregate.quote.status ≠ .managerReview)
      (conflict "Manager revisions are only allowed during manager review")
    let store ← read (·.store)
    let revised ← lift
      (changes.foldlM (reviseLine store aggregate.customer.tier) (aggregate.lines, []))
    let edited := withLines aggregate revised.1
    assertCommercialWrite env.options edited actor revised.2 []
    markIfFound env (edited.quote.activeNegotiationId.bind store.getNegotiation) .managerRevised
    settleEdit env edited aggregate.standing actor

def returnRevisedQuote (env : Env) (quoteId : Id) (negotiationId : Option Id) (actor : Actor)
    (expectedVersion : ℕ) : Mutation :=
  .saving env (do assertManagerActor actor; load quoteId)
    (fun aggregate => do
      assertExpectedVersion aggregate expectedVersion
      throwIf (aggregate.quote.status ≠ .managerReview)
        (conflict "Only a quotation in manager review can be returned to the customer")
      let aggregate ← moveTo aggregate .customerNegotiation
      let store ← read (·.store)
      let target := negotiationId.or aggregate.quote.activeNegotiationId
      markIfFound env
        ((target.bind store.getNegotiation).filter fun request => request.quoteId = quoteId)
        .returnedToCustomer
      return bumpVersion aggregate)
    (mailing env .prelimInvoice)

/-- The request a confirmation answers: the latest of the quote. -/
def latestNegotiation (store : Store) (quoteId : Id) : Option NegotiationRequest :=
  (sortBy (fun a b => (b.createdAt : Num) - a.createdAt) (store.listNegotiations quoteId)).head?

/-- Record what the customer decided, and on which version. -/
def setCustomerDecision (env : Env) (aggregate : QuoteAggregate) (decision : CustomerDecision) :
    QuoteAggregate :=
  { aggregate with
    quote :=
      { aggregate.quote with
        customerDecision := decision
        customerDecisionAt := some env.now
        customerDecisionVersion := some aggregate.quote.version } }

def agreeNegotiation (env : Env) (aggregate : QuoteAggregate)
    (latest : Option NegotiationRequest) : Service QuoteAggregate :=
  match latest with
  | some request => do
      markNegotiation env request .agreed
      return setActiveNegotiation aggregate request.id
  | none => return aggregate

def agreeToFinal (env : Env) (quoteId : Id) (expectedVersion : ℕ) : Mutation :=
  .saving env (load quoteId) fun aggregate => do
    let status := aggregate.quote.status
    assertExpectedVersion aggregate expectedVersion
    throwIf (status ≠ .draft ∧ status ≠ .customerNegotiation ∧ status ≠ .managerReview ∧
        status ≠ .finalized)
      (conflict "This quotation is not waiting for customer confirmation")
    let store ← read (·.store)
    let latest := latestNegotiation store quoteId
    throwIf (latest.any fun request =>
        request.status = .opened || request.status = .inReview || request.status = .sentToManager)
      (conflict
        "Confirm the quotation after the sales team returns a revision or accepts the request")
    let aggregate ← agreeNegotiation env aggregate latest
    return bumpVersion (setCustomerDecision env aggregate .accepted)

def finalizeQuotation (env : Env) (quoteId : Id) (actor : Actor) (expectedVersion : ℕ) : Mutation :=
  .saving env (do assertManagerActor actor; load quoteId)
    (fun aggregate => do
      let status := aggregate.quote.status
      assertExpectedVersion aggregate expectedVersion
      throwIf (status ≠ .managerReview ∧ status ≠ .customerNegotiation)
        (conflict s!"A quotation can only be finalized from review (status {status.text})")
      throwIf (aggregate.lines.length = 0)
        (invalid "A quotation needs at least one line before it can be finalized")
      let aggregate ← moveTo aggregate .finalized
      let frozen : QuoteAggregate :=
        { aggregate with
          quote :=
            { aggregate.quote with
              commerciallyFrozenAt := some env.now
              commerciallyFrozenBy := some actor.id } }
      let aggregate ← appendRevision env frozen actor true
      return bumpVersion aggregate)
    (mailing env .prelimInvoice)

/-! ## The customer portal -/

/-- The actor behind a portal token. -/
def portalActor : Actor := { id := "portal", role := some "user" }

/-- The token only finds the quote; the request is then made like any other. -/
def createPortalNegotiation (env : Env) (token : Id) (input : NegotiationInput) : Mutation where
  load := do
    let aggregate ← loadByToken token
    load aggregate.id
  edit := fun aggregate =>
    (createNegotiationRequest env aggregate.id
      { input with actorId := none, actorRole := some "customer" } (some portalActor)).edit aggregate
  idle := decorate env
  tail := decorate env

structure PortalLineChange where
  lineId : Id
  quantity : Option Num := none
  discountPercent : Option Num := none
  deriving DecidableEq, Repr

/-- A portal change restates the quantity and takes the rule price; a discount is only requested. -/
def PortalLineChange.apply (store : Store) (tier : CustomerTier) (change : PortalLineChange)
    (line : QuoteLine) : QuoteLine :=
  let line := { line with quantity := change.quantity.getD line.quantity }
  match store.getProduct line.productId with
  | none => line
  | some product => { line with listPrice := rulePriceFor store tier product line.quantity }

def changeLine (store : Store) (tier : CustomerTier) (lines : List QuoteLine)
    (change : PortalLineChange) : Except DomainError (List QuoteLine) :=
  match findLine lines change.lineId with
  | none => .error (notFound "Quote line not found" [("lineId", .id change.lineId)])
  | some _ => .ok (editLine change.lineId (change.apply store tier) lines)

/-- The discounts of a portal change become a negotiation request. -/
def requestDiscounts (env : Env) (aggregate : QuoteAggregate) (changes : List PortalLineChange) :
    Service QuoteAggregate :=
  match changes.filterMap (·.discountPercent) with
  | [] => return aggregate
  | first :: rest => do
      let id ← randomUUID
      let asked := ", ".intercalate ((first :: rest).map numText)
      updateStore (Store.saveNegotiation
        { id
          quoteId := aggregate.quote.id
          customerId := aggregate.customer.id
          actorRole := some "customer"
          requestedDiscountPercent := some (rest.foldl max first)
          requestedLines := changes.map fun change =>
            { lineId := some change.lineId
              quantity := change.quantity
              discountPercent := change.discountPercent
              action := some .update }
          note := s!"Requested line discounts: {asked}%"
          status := .opened
          createdAt := env.now
          updatedAt := env.now })
      return setActiveNegotiation aggregate id

def applyPortalChange (env : Env) (token : Id) (expectedVersion : ℕ)
    (changes : List PortalLineChange) : Mutation :=
  .saving env (loadByToken token) fun aggregate => do
    let status := aggregate.quote.status
    assertExpectedVersion aggregate expectedVersion
    throwIf (status ≠ .customerNegotiation ∧ status ≠ .draft)
      (conflict "This quote is not open for customer negotiation")
    let moved ← moveTo aggregate .customerNegotiation
    let store ← read (·.store)
    let lines ← lift (changes.foldlM (changeLine store moved.customer.tier) moved.lines)
    let edited ← requestDiscounts env (withLines moved lines) changes
    settleEdit env edited aggregate.standing portalActor

def applyPortalDecision (env : Env) (token : Id) (expectedVersion : ℕ) (action : CustomerDecision)
    (comment : Option String) : Mutation where
  load := do
    throwIf (action ≠ .accepted ∧ action ≠ .declined)
      (invalid "Customer decision must be accepted or declined")
    loadByToken token
  edit := fun aggregate => do
    let quote := aggregate.quote
    assertExpectedVersion aggregate expectedVersion
    throwIf (quote.status ≠ .draft ∧ quote.status ≠ .customerNegotiation ∧
        quote.status ≠ .managerReview)
      (conflict "This quote is not open for customer acceptance")
    if quote.customerDecision = action ∧ quote.customerDecisionVersion = some quote.version then
      return none
    else
      let decided := setCustomerDecision env aggregate action
      return some (bumpVersion
        { decided with quote := { decided.quote with customerDecisionComment := comment } })
  idle := decorate env
  tail := decorate env

/-! ## Locking, fulfillment and billing -/

def planInput (env : Env) (store : Store) (uuid : ℕ → Id) (aggregate : QuoteAggregate)
    (overrides : List FulfillmentOverride) : PlanInput where
  uuid := uuid
  localeCompare := env.options.platform.localeCompare
  quoteId := aggregate.id
  lines := aggregate.lines
  warehouses := store.warehouses
  stock := store.stock
  overrides := overrides

/-- The plan for a quote against a stock table, and the table with its reservations moved over, with every sum
rounded to a double. -/
def planAndReserve (input : PlanInput) (previous : List FulfillmentSplit) :
    Except DomainError (FulfillmentPlan × List StockLevel) := do
  let plan ← planFulfillment Doubles.double input
  let reserved ←
    reserveStock Doubles.double (productByLineId input.lines) input.stock previous plan.allocations
  return (plan, reserved)

/-- Ids enough for every split and backorder of a plan. -/
def planIds (store : Store) (aggregate : QuoteAggregate) (overrides : List FulfillmentOverride) : ℕ :=
  overrides.length + aggregate.lines.length * (store.warehouses.length + 1)

/-- A plan taken over into the quote. -/
def adoptPlan (aggregate : QuoteAggregate) (plan : FulfillmentPlan) : QuoteAggregate :=
  { aggregate with
    allocations := plan.allocations
    backorders := plan.backorders
    quote :=
      { aggregate.quote with
        status :=
          if aggregate.quote.status = .confirmed then .fulfillment else aggregate.quote.status } }

/-- The service's `planFulfillment`. -/
def planQuote (env : Env) (quoteId : Id) (overrides : List FulfillmentOverride)
    (expectedVersion : ℕ) : Mutation :=
  .saving env (load quoteId) fun aggregate => do
    let status := aggregate.quote.status
    assertExpectedVersion aggregate expectedVersion
    throwIf (¬ isOpenForPlanning status)
      (conflict s!"Fulfillment cannot be planned while status is {status.text}")
    let store ← read (·.store)
    let uuid ← randomUUIDs (planIds store aggregate overrides)
    let planned ← lift (planAndReserve (planInput env store uuid aggregate overrides)
      aggregate.allocations)
    updateStore (Store.replaceStock planned.2)
    return bumpVersion (adoptPlan aggregate planned.1)

def generateBilling (env : Env) (quoteId : Id) (expectedVersion : ℕ) : Mutation :=
  .saving env (load quoteId) fun aggregate => do
    let status := aggregate.quote.status
    assertExpectedVersion aggregate expectedVersion
    throwIf (¬ isOpenForBilling status)
      (conflict s!"Billing cannot be generated while status is {status.text}")
    let uuid ← randomUUIDs aggregate.lines.length
    let schedules ← lift
      (Billing.buildBillingSchedules id uuid quoteId env.now aggregate.lines aggregate.products)
    let aggregate ← moveTo { aggregate with schedules } .billing
    return bumpVersion aggregate

def cancelBilling (env : Env) (quoteId scheduleId : Id) (expectedVersion : ℕ) : Mutation :=
  .saving env (load quoteId) fun aggregate => do
    assertExpectedVersion aggregate expectedVersion
    let schedule ← orThrow (aggregate.schedules.find? fun item => item.id = scheduleId)
      (notFound "Billing schedule not found" [("scheduleId", .id scheduleId)])
    let cancelled ← lift (Billing.cancelSchedule env.now schedule)
    return bumpVersion
      { aggregate with
        schedules := aggregate.schedules.map fun item =>
          if item.id = scheduleId then cancelled else item }

/-- The stock after a confirmation, and what the confirmation took off the shelf. -/
def consumeAllocations (aggregate : QuoteAggregate) : Service PUnit :=
  if aggregate.allocations.length = 0 then pure PUnit.unit
  else do
    let store ← read (·.store)
    let stock ← lift (consumeStockOnConfirm Doubles.double (productByLineId aggregate.lines) store.stock
      aggregate.allocations)
    updateStore (Store.replaceStock stock)
    write fun w =>
      { w with consumed := w.consumed ++ aggregate.allocations.filter fun item => !item.isBackorder }

/-- Confirmed, and further along where the quote is already planned or billed. -/
def lockStatus (aggregate : QuoteAggregate) : Service QuoteAggregate := do
  let aggregate ← moveTo aggregate .confirmed
  let aggregate ←
    (if aggregate.allocations.length ≠ 0 then moveTo aggregate .fulfillment else pure aggregate)
  if aggregate.schedules.length ≠ 0 then moveTo aggregate .billing else pure aggregate

/-- The sale order of a locked quote, where the integration is there and answers. -/
def withSaleOrder (env : Env) (aggregate : QuoteAggregate) : QuoteAggregate :=
  match env.options.odoo, env.outside.createSaleOrder with
  | true, .ok saleOrder =>
      { aggregate with quote := { aggregate.quote with odooSaleOrderId := some saleOrder } }
  | _, _ => aggregate

def confirm (env : Env) (quoteId : Id) (actor : Actor) (expectedVersion : ℕ) : Mutation where
  load := load quoteId
  edit := fun aggregate => do
    let status := aggregate.quote.status
    assertExpectedVersion aggregate expectedVersion
    throwIf (¬ actorHas (some actor) "dealflow.quotes.lock")
      (forbidden "Only a finance manager can lock a quotation")
    if aggregate.quote.financeLockedAt.isSome then return none
    else
      throwIf (status ≠ .approved) (conflict s!"Quote cannot be locked from {status.text}")
      throwIf (¬ allRequiredApproved aggregate.approvals) (conflict "Quote still requires approval")
      let refreshed ← refreshAssessment env.options aggregate
      throwIf (refreshed.2.decision = .rejected) (conflict "Quote is outside reject ceilings")
      consumeAllocations refreshed.1
      let aggregate ← lockStatus refreshed.1
      let locked : QuoteAggregate :=
        { aggregate with
          quote :=
            { aggregate.quote with
              financeLockedAt := some env.now
              financeLockedBy := some actor.id } }
      return some (withSaleOrder env (bumpVersion locked))
  idle := fun aggregate => do
    mailing env .finalInvoice aggregate
    let refreshed ← refreshAssessment env.options aggregate
    decorate env refreshed.1
  tail := fun saved => do
    mailing env .finalInvoice saved
    decorate env saved

def complete (env : Env) (quoteId : Id) (expectedVersion : ℕ) : Mutation :=
  .saving env (load quoteId) fun aggregate => do
    let status := aggregate.quote.status
    assertExpectedVersion aggregate expectedVersion
    throwIf (status ≠ .billing ∧ status ≠ .fulfillment ∧ status ≠ .confirmed)
      (conflict s!"Quote cannot be completed from {status.text}")
    lift (assertTransition status .completed)
    let aggregate := if status = .confirmed then setStatus aggregate .fulfillment else aggregate
    let aggregate ←
      (if aggregate.quote.status = .fulfillment then moveTo aggregate .billing else pure aggregate)
    let aggregate ← moveTo aggregate .completed
    return bumpVersion aggregate

def voidQuote (env : Env) (quoteId : Id) (actor : Actor) (expectedVersion : ℕ) : Mutation :=
  .saving env
    (do
      throwIf (¬ actorHas (some actor) "dealflow.quotes.write")
        (forbidden "You are not allowed to void quotations")
      load quoteId)
    fun aggregate => do
      let status := aggregate.quote.status
      assertExpectedVersion aggregate expectedVersion
      throwIf (isCommerciallyLocked status aggregate.quote.financeLockedAt)
        (conflict "Locked orders cannot be voided. Cancel billing instead."
          [("status", .text status.text)])
      throwIf (¬ canVoidQuote status)
        (conflict
          (if canDeleteQuote status then "Delete this draft instead of voiding it."
           else "This quotation cannot be voided.")
          [("status", .text status.text)])
      throwIf
        ((status = .approvalRequired ∨ status = .approved ∨ status = .finalized) ∧
          ¬ actorHas (some actor) "dealflow.quotes.approve")
        (forbidden "Only an approver can void a quote in the approval pipeline")
      let aggregate ← moveTo aggregate .rejected
      return bumpVersion aggregate

/-! ## Creating, deleting and reading -/

/-- A draft with no lines. -/
def newDraft (env : Env) (id : Id) (number : String) (portalToken : Id) (customer : Customer)
    (ownerId : String) : QuoteAggregate where
  quote :=
    { id
      number
      customerId := customer.id
      ownerId := some ownerId
      status := .draft
      listTotal := 0
      discountTotal := 0
      netTotal := 0
      costTotal := 0
      marginPercent := 0
      blendedDiscountPercent := 0
      riskScore := 0
      assessmentDecision := .allowed
      portalToken
      version := 1
      taxTotal := 0
      customerDecision := .none
      createdAt := env.now
      updatedAt := env.now }
  customer := customer
  lines := []
  products := []
  approvals := []
  allocations := []
  backorders := []
  schedules := []
  revisions := []

/-- A new quote before its save: the draft and its lines. -/
def draftQuote (env : Env) (customerId : Id) (ownerId : Option String) (inputs : List LineInput)
    (actor : Actor) : Service QuoteAggregate := do
  let store ← read (·.store)
  let customer ← orThrow (store.getCustomer customerId)
    (notFound "Customer not found" [("customerId", .id customerId)])
  let id ← randomUUID
  let number ← nextQuoteNumber
  let portalToken ← randomUUID
  let draft := newDraft env id number portalToken customer (ownerId.getD actor.id)
  assertCommercialWrite env.options draft actor (inputs.map (·.discountPercent)) []
  let lines ← inputs.foldlM
    (fun (lines : List QuoteLine) input => do
      let line ← toLine id input
      return lines ++ [line]) []
  return withLines draft lines

def createQuote (env : Env) (customerId : Id) (ownerId : Option String) (inputs : List LineInput)
    (actor : Actor) : Service QuoteAggregate := do
  let draft ← draftQuote env customerId ownerId inputs actor
  let saved ← saveAssessed env draft
  decorate env saved

/-- What `deleteQuote` checks first. -/
def assertDeletable (quoteId : Id) (actor : Actor) (expectedVersion : ℕ) : Service PUnit := do
  throwIf (¬ actorHas (some actor) "dealflow.quotes.write")
    (forbidden "You are not allowed to delete quotations")
  let aggregate ← load quoteId
  let status := aggregate.quote.status
  assertExpectedVersion aggregate expectedVersion
  throwIf (isCommerciallyLocked status aggregate.quote.financeLockedAt)
    (conflict "Locked orders cannot be deleted. Cancel billing instead."
      [("status", .text status.text)])
  throwIf (¬ canDeleteQuote status)
    (conflict
      (if canVoidQuote status then "This quotation cannot be deleted. Void it instead."
       else "This quotation cannot be deleted.")
      [("status", .text status.text)])

def deleteQuote (quoteId : Id) (actor : Actor) (expectedVersion : ℕ) : Service PUnit := do
  assertDeletable quoteId actor expectedVersion
  updateStore (Store.deleteQuote quoteId)

/-- `assess`: the only operation that stores a quote under the version it was read with. -/
def assess (env : Env) (quoteId : Id) : Service QuoteAggregate := do
  let aggregate ← load quoteId
  let refreshed ← refreshAssessment env.options aggregate
  let _ ← saveQuote refreshed.1
  decorate env refreshed.1

def getQuote (env : Env) (quoteId : Id) : Service QuoteAggregate := do
  let aggregate ← load quoteId
  let refreshed ← refreshAssessment env.options aggregate
  decorate env refreshed.1

def getQuoteByToken (env : Env) (token : Id) : Service QuoteAggregate := do
  let aggregate ← loadByToken token
  let refreshed ← refreshAssessment env.options aggregate
  decorate env refreshed.1

/-- Every stored quote as a reader sees it, each answered for. -/
def listQuotes (env : Env) : Service (List QuoteAggregate) := do
  let store ← read (·.store)
  let summaries ← lift (store.quotes.mapM store.attach)
  summaries.foldlM
    (fun (answers : List QuoteAggregate) aggregate => do
      let answer ← decorate env aggregate
      return answers ++ [answer]) []

def recommendations (quoteId : Id) : Service (List Recommendation) := do
  let aggregate ← load quoteId
  let store ← read (·.store)
  return recommendProducts aggregate.lines store.products store.relations

end DealFlow360
