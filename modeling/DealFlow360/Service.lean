import DealFlow360.Approval
import DealFlow360.CustomerEmail
import DealFlow360.Recommendation
import DealFlow360.Store

/-!
# The service core

What every operation on a quote is built from: loading and the version check,
the assessment that re-derives the totals, the commercial guard, revisions,
customer emails and the save. Audit records, notifications, published events
and anomalies are written for others and read by nothing here.

A mutation loads the quote, checks the version, edits its copy, re-assesses and
saves. The save looks up every product, derives the totals anew and writes the
record; then emails are attempted and recorded. A program that throws keeps
what it wrote before, as the memory store does. The list of what is left out is
that of writes nobody reads back here.
-/

namespace DealFlow360

open Program

/-! ## What a request runs in -/

/-- How the service was created: an overriding configuration, whether the email adapter and the sale
order integration are there, and the platform's text functions. -/
structure Options where
  config : Option GovernanceConfig := none
  sendCustomerEmail : Bool := false
  odoo : Bool := false
  platform : Platform

inductive EmailResultStatus where
  | sent | notConfigured | failed | skipped
  deriving DecidableEq, Repr

structure EmailResult where
  status : EmailResultStatus
  provider : Option String := none
  providerMessageId : Option String := none
  notificationDeliveryId : Option String := none
  error : Option String := none
  deriving DecidableEq, Repr

/-- What a request meets outside the store: the clock, and what rendering, mailing and the sale order
answer or throw. -/
structure Outside where
  now : Timestamp := 0
  renderCustomerQuotePdf : Except String PUnit := .ok PUnit.unit
  sendCustomerEmail : Except String EmailResult := .ok { status := .sent }
  createSaleOrder : Except String ℕ := .ok 0

structure Env where
  options : Options
  outside : Outside

namespace Env

abbrev now (env : Env) : Timestamp := env.outside.now

end Env

/-- `governanceOf()`: the configured override, else the stored settings. -/
def Options.governanceOf (options : Options) (store : Store) : GovernanceConfig :=
  options.config.getD store.governance

/-! ## Loading and assessing -/

def load (id : Id) : Service QuoteAggregate := do
  let found ← getStoredQuote fun store => store.storedQuote id
  orThrow found (notFound "Quote not found" [("id", .id id)])

def loadByToken (token : Id) : Service QuoteAggregate := do
  let found ← getStoredQuote fun store => store.storedByToken token
  orThrow found (notFound "Quote portal token is invalid")

def assertExpectedVersion (aggregate : QuoteAggregate) (expectedVersion : ℕ) : Service PUnit :=
  throwIf (aggregate.quote.version ≠ expectedVersion)
    (conflict "Quotation updated by another user."
      [("currentVersion", .num aggregate.quote.version), ("expectedVersion", .num expectedVersion)])

def bumpVersion (aggregate : QuoteAggregate) : QuoteAggregate :=
  { aggregate with quote := { aggregate.quote with version := aggregate.quote.version + 1 } }

def setStatus (aggregate : QuoteAggregate) (status : QuoteStatus) : QuoteAggregate :=
  { aggregate with quote := { aggregate.quote with status } }

/-- `assertTransition` followed by the assignment. -/
def moveTo (aggregate : QuoteAggregate) (status : QuoteStatus) : Service QuoteAggregate := do
  lift (assertTransition aggregate.quote.status status)
  return setStatus aggregate status

/-- Every line with its product in the catalog. -/
def pairProducts (store : Store) : List QuoteLine → Except DomainError (List (QuoteLine × Product))
  | [] => .ok []
  | line :: lines =>
      match store.getProduct line.productId, pairProducts store lines with
      | none, _ =>
          .error (invalid "Quote line references an unknown product"
            [("productId", .id line.productId)])
      | some _, .error e => .error e
      | some product, .ok pairs => .ok ((line, product) :: pairs)

theorem pairProducts_fst {store : Store} :
    ∀ {lines : List QuoteLine} {pairs : List (QuoteLine × Product)},
      pairProducts store lines = .ok pairs → pairs.map (·.1) = lines
  | [], _, h => by
      obtain rfl := Except.ok.inj h
      rfl
  | line :: lines, pairs, h => by
      simp only [pairProducts] at h
      split at h
      · cases h
      · cases h
      · rename_i product rest hproduct hrest
        obtain rfl := Except.ok.inj h
        rw [List.map_cons, pairProducts_fst hrest]

theorem pairProducts_snd {store : Store} :
    ∀ {lines : List QuoteLine} {pairs : List (QuoteLine × Product)},
      pairProducts store lines = .ok pairs →
        ∀ entry ∈ pairs, store.getProduct entry.1.productId = some entry.2
  | [], _, h => by
      obtain rfl := Except.ok.inj h
      exact fun entry hentry => absurd hentry List.not_mem_nil
  | line :: lines, pairs, h => by
      simp only [pairProducts] at h
      split at h
      · cases h
      · cases h
      · rename_i product rest hproduct hrest
        obtain rfl := Except.ok.inj h
        intro entry hentry
        rcases List.mem_cons.mp hentry with rfl | hentry
        · exact hproduct
        · exact pairProducts_snd hrest entry hentry

def assessmentInput (options : Options) (store : Store) (tier : CustomerTier)
    (pairs : List (QuoteLine × Product)) : AssessmentInput where
  customerTier := tier
  lines := pairs
  policies := store.policies
  chains := store.chains
  config := options.governanceOf store
  quantityBreaks := store.quantityBreaks
  roleAuthorities := store.roleAuthorities
  stock := store.stock
  warehouses := store.warehouses

/-- The aggregate with the assessment's figures and the products its lines name. -/
def applyAssessment (options : Options) (store : Store) (aggregate : QuoteAggregate)
    (assessment : QuoteAssessment) : QuoteAggregate :=
  { aggregate with
    products := store.products.filter fun item =>
      aggregate.lines.any fun line => line.productId = item.id
    quote :=
      { aggregate.quote with
        listTotal := assessment.listTotal
        discountTotal := assessment.discountTotal
        netTotal := assessment.netTotal
        costTotal := assessment.costTotal
        marginPercent := assessment.marginPercent
        blendedDiscountPercent := assessment.blendedDiscountPercent
        riskScore := assessment.riskScore
        assessmentDecision := assessment.decision
        requiredChainId := assessment.requiredChainId
        taxTotal :=
          Tax.computeTaxTotal aggregate.lines store.products (options.governanceOf store) } }

def refreshAssessment (options : Options) (aggregate : QuoteAggregate) :
    Service (QuoteAggregate × QuoteAssessment) := do
  let store ← read (·.store)
  let pairs ← lift (pairProducts store aggregate.lines)
  let assessment := assessQuote (assessmentInput options store aggregate.customer.tier pairs)
  return (applyAssessment options store aggregate assessment, assessment)

/-! ## Guards -/

def actorHas (actor : Option Actor) (permission : String) : Bool :=
  match actor with
  | none => false
  | some someone =>
      someone.permissions.contains permission || (actorDiscountRoles actor).contains "admin"

def assertManagerActor (actor : Actor) : Service PUnit :=
  let roles := actorDiscountRoles (some actor)
  throwIf (¬ roles.contains "manager" ∧ ¬ roles.contains "admin")
    (forbidden "Only a manager can perform this commercial step")

structure PriceOverride where
  rulePrice : Num
  appliedPrice : Num
  deriving DecidableEq, Repr

def assertCommercialWrite (options : Options) (aggregate : QuoteAggregate) (actor : Actor)
    (discounts : List Num) (overrides : List PriceOverride) : Service PUnit := do
  let status := aggregate.quote.status
  throwIf (isCommerciallyLocked status aggregate.quote.financeLockedAt)
    (conflict "Locked quotations cannot be changed. Clone a new revision to reopen approval."
      [("status", .text status.text)])
  throwIf (¬ canMutateCommercials status)
    (conflict s!"Quote commercials cannot change while status is {status.text}"
      [("status", .text status.text)])
  (if status = .managerReview then assertManagerActor actor else pure PUnit.unit)
  let store ← read (·.store)
  let loyaltyTier := wonPurchaseCountToTier (store.countWonPurchases aggregate.customer.id)
  lift (discounts.forM fun discount =>
    assertDiscountWithinAuthority discount store.roleAuthorities (some actor) loyaltyTier
      (options.governanceOf store))
  lift (overrides.forM fun item =>
    assertPriceOverrideWithinAuthority item.rulePrice item.appliedPrice store.roleAuthorities
      (some actor))

/-! ## Revisions and the save -/

def isUuid (value : String) : Bool :=
  let groups := value.toList.splitOn '-'
  groups.map List.length = [8, 4, 4, 4, 12] && groups.all fun group => group.all fun c =>
    c.isDigit || 'a' ≤ c.toLower && c.toLower ≤ 'f'

def uuidOrNull (value : Option String) : Option String := value.filter isUuid

def appendRevision (env : Env) (aggregate : QuoteAggregate) (actor : Actor)
    (materialChange : Bool) : Service QuoteAggregate := do
  let id ← randomUUID
  return { aggregate with
    revisions := aggregate.revisions ++
      [{ id
         quoteId := aggregate.quote.id
         version := aggregate.quote.version
         snapshot :=
           { status := aggregate.quote.status
             lines := aggregate.lines
             blendedDiscountPercent := aggregate.quote.blendedDiscountPercent
             netTotal := aggregate.quote.netTotal }
         materialChange
         createdBy := uuidOrNull (some actor.id)
         createdAt := env.now }] }

/-- What a later change is measured against. -/
def QuoteAggregate.standing (aggregate : QuoteAggregate) : Standing where
  blendedDiscountPercent := aggregate.quote.blendedDiscountPercent
  netTotal := aggregate.quote.netTotal

def findChain (store : Store) (assessment : QuoteAssessment) : Option ApprovalChain :=
  assessment.requiredChainId.bind fun id => store.chains.find? fun item => item.id = id

/-- A material change to an approved quote reopens its approvals; the flag says whether the change
was material. -/
def maybeReapprove (options : Options) (aggregate : QuoteAggregate) (before : Standing) :
    Service (QuoteAggregate × Bool) := do
  let refreshed ← refreshAssessment options aggregate
  let aggregate := refreshed.1
  let assessment := refreshed.2
  let store ← read (·.store)
  let config := options.governanceOf store
  let after : Standing :=
    { blendedDiscountPercent := assessment.blendedDiscountPercent, netTotal := assessment.netTotal }
  if ¬ isMaterialChange before after config then return (aggregate, false)
  else if aggregate.quote.status = .approved then
    let chain ← orThrow (findChain store assessment)
      (conflict "Material change requires approval but no matching chain is configured")
    let uuid ← randomUUIDs (chainLevels chain config.maxApprovalLevels).length
    let aggregate ← moveTo
      { aggregate with
        approvals := invalidateApprovals aggregate.approvals
          ++ buildApprovalSteps uuid aggregate.quote.id chain config.maxApprovalLevels }
      .approvalRequired
    return (aggregate, true)
  else return (aggregate, true)

def finishMutation (env : Env) (aggregate : QuoteAggregate) (actor : Actor) (material : Bool) :
    Service QuoteAggregate :=
  let aggregate := bumpVersion aggregate
  if material then appendRevision env aggregate actor true else pure aggregate

def stamp (env : Env) (aggregate : QuoteAggregate) : QuoteAggregate :=
  { aggregate with quote := { aggregate.quote with updatedAt := env.now } }

/-- Re-assess and store; the answer is the stored quote as a reader sees it. -/
def saveAssessed (env : Env) (aggregate : QuoteAggregate) : Service QuoteAggregate := do
  let refreshed ← refreshAssessment env.options aggregate
  saveQuote (stamp env refreshed.1)

/-! ## Answering -/

/-- The write every answer makes: the customer's stored tier follows the purchases won. -/
def decorate (env : Env) (aggregate : QuoteAggregate) : Service QuoteAggregate := do
  let store ← read (·.store)
  let won := store.countWonPurchases aggregate.customer.id
  let persisted := persistCustomerTier (wonPurchaseCountToTier won).text
  if aggregate.customer.email ≠ "" ∧
      persistCustomerTier aggregate.customer.tier.text ≠ persisted then
    let updated ← upsertCustomer env.options.platform
      { name := aggregate.customer.name
        email := aggregate.customer.email
        tier := some persisted }
    return { aggregate with customer := { aggregate.customer with tier := updated.tier } }
  else return aggregate

/-! ## Customer emails -/

/-- The record a delivery starts from: a new one, or the earlier one brought up to date. -/
def startEmail (env : Env) (aggregate : QuoteAggregate) (eventType : QuoteEmailEvent)
    (recipient key : String) (document : QuoteEmailDocument)
    (existing : Option QuoteEmailDelivery) : Service QuoteEmailDelivery :=
  match existing with
  | some record => do
      let record :=
        { record with
          quoteVersion := aggregate.quote.version
          recipientEmail := if recipient = "" then record.recipientEmail else recipient
          payload := document
          updatedAt := env.now }
      updateStore (Store.saveQuoteEmail record)
      return record
  | none => do
      let id ← randomUUID
      let record : QuoteEmailDelivery :=
        { id
          quoteId := aggregate.quote.id
          eventType
          quoteVersion := aggregate.quote.version
          recipientEmail := recipient
          status := if recipient = "" then .failed else .pending
          idempotencyKey := key
          errorMessage := if recipient = "" then some "Customer email is missing" else none
          payload := document
          createdAt := env.now
          updatedAt := env.now }
      updateStore (Store.saveQuoteEmail record)
      return record

/-- What the sender's answer makes of a record's status. -/
def mapEmailStatus (result : EmailResultStatus) (current : QuoteEmailStatus) : QuoteEmailStatus :=
  match result with
  | .sent => .sent
  | .notConfigured => .notConfigured
  | .skipped =>
      if current = .sent then .sent
      else if current = .notConfigured then .notConfigured
      else .pending
  | .failed => .failed

/-- The record after the attempt, and whether the adapter was called. -/
def attemptEmail (env : Env) (record : QuoteEmailDelivery) : QuoteEmailDelivery × Bool :=
  match env.outside.renderCustomerQuotePdf with
  | .error message =>
      ({ record with status := .failed, errorMessage := some message, updatedAt := env.now }, false)
  | .ok _ =>
      if ¬ env.options.sendCustomerEmail then
        ({ record with
           status := .notConfigured
           errorMessage := some "Email adapter is not available"
           updatedAt := env.now }, false)
      else
        match env.outside.sendCustomerEmail with
        | .error message =>
            ({ record with
               status := .failed, errorMessage := some message, updatedAt := env.now }, true)
        | .ok result =>
            let mapped := mapEmailStatus result.status record.status
            ({ record with
               status := mapped
               provider := result.provider
               providerMessageId := result.providerMessageId
               notificationDeliveryId := result.notificationDeliveryId
               errorMessage := result.error.or
                 (if mapped = .notConfigured then some "Email provider is not configured" else none)
               sentAt := if mapped = .sent then some env.now else none
               updatedAt := env.now }, true)

def dispatchCustomerQuoteEmail (env : Env) (aggregate : QuoteAggregate)
    (eventType : QuoteEmailEvent) : Service QuoteEmailDelivery := do
  let recipient := trim aggregate.customer.email
  let key := customerQuoteEmailKey aggregate.quote.id eventType
    (customerQuoteEmailStamp aggregate eventType)
  let existing ← read (·.store.findQuoteEmailByKey key)
  match existing.filter fun record => record.status = .sent || record.status = .notConfigured with
  | some record => return record
  | none =>
      let document := buildCustomerQuoteDocument aggregate eventType
      let record ← startEmail env aggregate eventType recipient key document existing
      if recipient = "" then return record
      else
        let (next, called) := attemptEmail env record
        write fun w =>
          { w with
            outbox := if called then
              w.outbox ++
                [{ recipient, idempotencyKey := key, quoteId := aggregate.quote.id, eventType
                   quoteVersion := document.quoteVersion, filename := emailFilename document }]
              else w.outbox }
        updateStore (Store.saveQuoteEmail next)
        return next

end DealFlow360
