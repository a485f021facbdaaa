import DealFlow360.Negotiations
import DealFlow360.QuoteLines

/-!
# The customer portal

What the service answers about a quote, the part of it the portal passes on to
the customer, and what that part can depend on. Everything the portal leaves
out has no influence on it; the negotiations are passed on as they are stored,
with the staff they name.

`SameVisible` relates two worlds a customer cannot tell apart: they agree on
the quote, its lines, totals and schedules and on the catalog, but may name
other staff. Each part of the answer is shown to be a function of what is
visible (`portalViewOf_visible`), and views of one quote are the same exactly
if they pass on the same negotiations (`portalViewOf_inj`).

`portal_noninterference_iff` is exact: in such worlds the portal answers the
same if and only if the negotiations it passes on are the same, actor and
responder included. `portal_interference` tells two salespeople apart.
-/

namespace DealFlow360

open Program

/-! ## The answer about a quote -/

/-- The record `hybridCommercials` answers. -/
structure CommercialsView where
  oneTimeNet : Num
  recurringMonthly : Num
  recurringYearly : Num
  recurringAnnual : Num
  dueToday : Num
  taxTotal : Num
  deriving DecidableEq, Repr

def commercialsView (lines : List QuoteLine) (products : List Product) (taxTotal : Num) :
    CommercialsView :=
  let sums := Billing.hybridCommercials id lines products
  { oneTimeNet := sums.oneTimeNet
    recurringMonthly := sums.recurringMonthly
    recurringYearly := sums.recurringYearly
    recurringAnnual := sums.recurringAnnual id
    dueToday := sums.dueToday id taxTotal
    taxTotal }

structure LoyaltyView where
  tier : LoyaltyTier
  wonPurchaseCount : ℕ
  bonusPercent : Num
  deriving DecidableEq, Repr

def loyaltyView (won : ℕ) : LoyaltyView where
  tier := wonPurchaseCountToTier won
  wonPurchaseCount := won
  bonusPercent := loyaltyBonusPercent (wonPurchaseCountToTier won).text

structure PresentedLine where
  line : QuoteLine
  product : Option Product
  deriving DecidableEq, Repr

/-- What `present` makes of a quote; the deal health, a reading of other fields, is left out. -/
structure PresentedQuote where
  quote : Quote
  grandTotal : Num
  commercials : CommercialsView
  loyalty : LoyaltyView
  negotiations : Option (List NegotiationRequest)
  discountAuthority : Option DiscountCeiling
  customerEmails : List QuoteEmailDelivery
  customer : Customer
  lines : List PresentedLine
  assessment : Option QuoteAssessment
  approvals : List QuoteApproval
  allocations : List FulfillmentSplit
  backorders : List Backorder
  shipmentCount : ℕ
  fulfillmentCost : Num
  backorderQuantity : Num
  billing : List BillingSchedule
  revisions : List QuoteRevision
  deriving DecidableEq, Repr

def present (aggregate : QuoteAggregate) (assessment : Option QuoteAssessment) (loyalty : LoyaltyView)
    (negotiations : Option (List NegotiationRequest)) (discountAuthority : Option DiscountCeiling)
    (customerEmails : List QuoteEmailDelivery) : PresentedQuote :=
  let shipped := aggregate.allocations.filter fun item => !item.isBackorder
  { quote := aggregate.quote
    grandTotal := aggregate.quote.netTotal + aggregate.quote.taxTotal
    commercials := commercialsView aggregate.lines aggregate.products aggregate.quote.taxTotal
    loyalty
    negotiations
    discountAuthority
    customerEmails
    customer := aggregate.customer
    lines := aggregate.lines.map fun line =>
      { line, product := aggregate.products.find? fun item => item.id = line.productId }
    assessment
    approvals := aggregate.approvals
    allocations := aggregate.allocations
    backorders := aggregate.backorders
    shipmentCount := (shipped.map (·.warehouseId)).dedup.length
    fulfillmentCost := (shipped.map fun item => item.quantity * item.unitFulfillmentCost).sum
    backorderQuantity := (aggregate.backorders.map (·.quantity)).sum
    billing := aggregate.schedules
    revisions := aggregate.revisions }

/-- `decorate` with the record it answers. -/
def decorated (env : Env) (aggregate : QuoteAggregate) (assessment : Option QuoteAssessment)
    (actor : Option Actor) (includeNegotiations : Bool) : Service PresentedQuote := do
  let won ← read (·.store.countWonPurchases aggregate.customer.id)
  let aggregate ← decorate env aggregate
  let store ← read (·.store)
  let loyalty := loyaltyView won
  return present aggregate assessment loyalty
    (if includeNegotiations then some (store.listNegotiations aggregate.id) else none)
    (actor.map fun someone =>
      actorDiscountCeiling store.roleAuthorities (some someone) loyalty.tier
        (env.options.governanceOf store))
    (store.listQuoteEmails aggregate.id)

/-! ## What the portal passes on -/

structure PortalProduct where
  name : String
  sku : String
  billingType : BillingType
  billingFrequency : Option BillingFrequency
  description : Option String
  deriving DecidableEq, Repr

structure PortalLine where
  id : Id
  quantity : Num
  listPrice : Num
  discountPercent : Num
  product : Option PortalProduct
  deriving DecidableEq, Repr

structure PortalView where
  id : Id
  number : String
  status : QuoteStatus
  createdAt : Timestamp
  listTotal : Num
  discountTotal : Num
  netTotal : Num
  blendedDiscountPercent : Num
  version : ℕ
  taxTotal : Num
  grandTotal : Num
  recurringMonthly : Num
  recurringAnnual : Num
  commercials : CommercialsView
  loyalty : LoyaltyView
  negotiations : List NegotiationRequest
  customerDecision : CustomerDecision
  customerName : String
  lines : List PortalLine
  deriving DecidableEq, Repr

def toPortalView (presented : PresentedQuote) : PortalView where
  id := presented.quote.id
  number := presented.quote.number
  status := presented.quote.status
  createdAt := presented.quote.createdAt
  listTotal := presented.quote.listTotal
  discountTotal := presented.quote.discountTotal
  netTotal := presented.quote.netTotal
  blendedDiscountPercent := presented.quote.blendedDiscountPercent
  version := presented.quote.version
  taxTotal := presented.quote.taxTotal
  grandTotal := presented.quote.netTotal + presented.quote.taxTotal
  recurringMonthly := presented.commercials.recurringMonthly
  recurringAnnual := presented.commercials.recurringAnnual
  commercials := presented.commercials
  loyalty := presented.loyalty
  negotiations := presented.negotiations.getD []
  customerDecision := presented.quote.customerDecision
  customerName := presented.customer.name
  lines := presented.lines.map fun item =>
    { id := item.line.id
      quantity := item.line.quantity
      listPrice := item.line.listPrice
      discountPercent := item.line.discountPercent
      product := item.product.map fun product =>
        { name := product.name
          sku := product.sku
          billingType := product.billingType
          billingFrequency := product.billingFrequency
          description := product.description } }

/-- `getQuoteByToken` with the payload it answers. -/
def portalPayload (env : Env) (token : Id) : Service PortalView := do
  let aggregate ← loadByToken token
  let refreshed ← refreshAssessment env.options aggregate
  let presented ← decorated env refreshed.1 none none true
  return toPortalView presented

/-! ## What the payload is computed from -/

/-- The quote behind a token with its customer and products. -/
def findByToken (store : Store) (token : Id) : Except DomainError QuoteAggregate :=
  match store.storedByToken token with
  | none => .error (notFound "Quote portal token is invalid")
  | some q => store.attach q

/-- The payload about the quote `a` whose lines have the products `pairs`. -/
def portalViewOf (options : Options) (store : Store) (a : QuoteAggregate)
    (pairs : List (QuoteLine × Product)) (won : ℕ) (negotiations : List NegotiationRequest) :
    PortalView :=
  toPortalView (present
    (applyAssessment options store a
      (assessQuote (assessmentInput options store a.customer.tier pairs)))
    none (loyaltyView won) (some negotiations) none [])

theorem loadByToken_eq (token : Id) (w : World) :
    loadByToken token w = lift (findByToken w.store token) w := by
  unfold loadByToken getStoredQuote findByToken
  simp only [bind, EStateM.bind, Program.read]
  cases w.store.storedByToken token with
  | none => rfl
  | some q =>
      cases hattach : w.store.attach q with
      | error e =>
          simp only [hattach]
          rfl
      | ok a =>
          simp only [hattach]
          rfl

theorem refreshAssessment_eq (options : Options) (a : QuoteAggregate) (w : World) :
    refreshAssessment options a w = lift
      ((pairProducts w.store a.lines).map fun pairs =>
        let assessment := assessQuote (assessmentInput options w.store a.customer.tier pairs)
        (applyAssessment options w.store a assessment, assessment)) w := by
  unfold refreshAssessment
  simp only [bind, EStateM.bind, Program.read]
  cases pairProducts w.store a.lines with
  | error e => rfl
  | ok pairs => rfl

theorem decorate_eq_ok {env : Env} {a b : QuoteAggregate} {w w' : World}
    (h : decorate env a w = .ok b w') :
    ∃ tier, b = { a with customer := { a.customer with tier } } := by
  unfold decorate at h
  simp only [bind_eq_ok, read_eq_ok] at h
  obtain ⟨_, _, ⟨rfl, rfl⟩, h⟩ := h
  split at h
  · simp only [bind_eq_ok, pure_eq_ok] at h
    obtain ⟨updated, _, -, rfl, -⟩ := h
    exact ⟨_, rfl⟩
  · obtain ⟨rfl, -⟩ := pure_eq_ok.mp h
    exact ⟨a.customer.tier, rfl⟩

/-- The portal's part of the answer about `a` does not depend on what the answer writes. -/
theorem decorated_eq_ok (env : Env) (a : QuoteAggregate) (w : World) :
    ∃ presented w', decorated env a none none true w = .ok presented w' ∧
      toPortalView presented = toPortalView (present a none
        (loyaltyView (w.store.countWonPurchases a.customer.id))
        (some (w.store.listNegotiations a.id)) none []) := by
  obtain ⟨b, w', hdecorate⟩ := (inferInstance : Total (decorate env a)).total w
  have hframe : TailFrame w w' := Keeps.of_ok hdecorate
  have hnegotiations : w'.store.listNegotiations a.id = w.store.listNegotiations a.id := by
    unfold Store.listNegotiations
    rw [hframe.negotiationsKept.negotiations]
  obtain ⟨tier, rfl⟩ := decorate_eq_ok hdecorate
  refine ⟨present { a with customer := { a.customer with tier } } none
    (loyaltyView (w.store.countWonPurchases a.customer.id)) (some (w'.store.listNegotiations a.id)) none
    (w'.store.listQuoteEmails a.id), w', ?_, ?_⟩
  · unfold decorated
    rw [bind_of_ok (read_eq_ok.mpr ⟨rfl, rfl⟩), bind_of_ok hdecorate,
      bind_of_ok (read_eq_ok.mpr ⟨rfl, rfl⟩)]
    rfl
  · rw [← hnegotiations]
    rfl

/-- The portal does to the store what `getQuoteByToken` does: the customer's tier may move. -/
theorem after_portalPayload (env : Env) (token : Id) (w : World) :
    after (portalPayload env token) w = after (getQuoteByToken env token) w := by
  unfold portalPayload getQuoteByToken
  refine after_bind_congr (fun aggregate w => ?_) w
  refine after_bind_congr (fun refreshed w => ?_) w
  obtain ⟨presented, w', hpresented, -⟩ := decorated_eq_ok env refreshed.1 w
  rw [after_bind_of_ok hpresented, after_pure]
  unfold decorated at hpresented
  simp only [bind_eq_ok, read_eq_ok, pure_eq_ok] at hpresented
  obtain ⟨_, _, ⟨-, rfl⟩, b, _, hdecorate, _, _, ⟨-, rfl⟩, -, rfl⟩ := hpresented
  exact (after_of_ok hdecorate).symm

/-- What the portal answers, as a function of the store alone. -/
theorem answer_portalPayload (env : Env) (token : Id) (w : World) :
    answer (portalPayload env token) w =
      (do
        let a ← findByToken w.store token
        let pairs ← pairProducts w.store a.lines
        return portalViewOf env.options w.store a pairs (w.store.countWonPurchases a.customer.id)
          (w.store.listNegotiations a.id)) := by
  have hanswer (a : QuoteAggregate) (pairs : List (QuoteLine × Product)) :
      answer (do
        let presented ← decorated env (applyAssessment env.options w.store a
          (assessQuote (assessmentInput env.options w.store a.customer.tier pairs))) none none true
        return toPortalView presented) w
        = .ok (portalViewOf env.options w.store a pairs (w.store.countWonPurchases a.customer.id)
            (w.store.listNegotiations a.id)) := by
    obtain ⟨presented, w', hpresented, hview⟩ := decorated_eq_ok env
      (applyAssessment env.options w.store a
        (assessQuote (assessmentInput env.options w.store a.customer.tier pairs))) w
    rw [answer_bind_of_ok hpresented]
    exact congrArg Except.ok hview
  unfold portalPayload
  rw [answer_bind_of_lift (loadByToken_eq token w)]
  refine congrArg _ (funext fun a => ?_)
  rw [answer_bind_of_lift (refreshAssessment_eq env.options a w)]
  cases pairProducts w.store a.lines with
  | error e => rfl
  | ok pairs => exact hanswer a pairs

/-! ## Worlds a customer cannot tell apart -/

/-- A quote without what is for the staff alone: approvals, risk and margin, fulfillment, billing,
revisions, and who owns, froze and locked it. -/
def QuoteAggregate.visible (q : QuoteAggregate) : QuoteAggregate :=
  { q with
    approvals := []
    allocations := []
    backorders := []
    schedules := []
    revisions := []
    quote :=
      { q.quote with
        ownerId := none
        costTotal := 0
        marginPercent := 0
        riskScore := 0
        assessmentDecision := .allowed
        requiredChainId := none
        commerciallyFrozenBy := none
        financeLockedBy := none } }

/-- A negotiation without the staff it names. -/
def NegotiationRequest.unsigned (request : NegotiationRequest) : NegotiationRequest :=
  { request with actorId := none, respondedBy := none }

/-- The staff a negotiation names: who made it and who answered it. -/
def NegotiationRequest.staff (request : NegotiationRequest) : Option String × Option String :=
  (request.actorId, request.respondedBy)

/-- The worlds have the same quotes and negotiations as far as a customer is concerned, and the same
catalog, customers and rules. -/
structure SameVisible (w w' : World) : Prop where
  store : w'.store =
    { w.store with quotes := w'.store.quotes, negotiations := w'.store.negotiations }
  quotes : w'.store.quotes.map QuoteAggregate.visible = w.store.quotes.map QuoteAggregate.visible
  negotiations : w'.store.negotiations.map NegotiationRequest.unsigned
    = w.store.negotiations.map NegotiationRequest.unsigned

/-- What the visible part keeps agrees on quotes with one visible part. -/
theorem eq_of_visible {β : Type} {a b : QuoteAggregate} (f : QuoteAggregate → β)
    (h : a.visible = b.visible) (hf : ∀ c : QuoteAggregate, f c.visible = f c := by intro c; rfl) :
    f a = f b := by
  rw [← hf a, ← hf b, h]

section Visible

variable {w w' : World}

/-- A test that reads the views alone finds rows with one view in lists with one list of views. -/
theorem find?_of_map_eq {α β : Type} {view : α → β} (p : β → Bool) {l l' : List α}
    (h : l'.map view = l.map view) :
    (l'.find? (p ∘ view)).map view = (l.find? (p ∘ view)).map view := by
  rw [← List.find?_map, ← List.find?_map, h]

theorem SameVisible.storedByToken (h : SameVisible w w') (token : Id) :
    (w'.store.storedByToken token).map QuoteAggregate.visible
      = (w.store.storedByToken token).map QuoteAggregate.visible :=
  find?_of_map_eq (fun q : QuoteAggregate => decide (q.quote.portalToken = token)) h.quotes

theorem SameVisible.countWonPurchases (h : SameVisible w w') (customerId : Id) :
    w'.store.countWonPurchases customerId = w.store.countWonPurchases customerId := by
  have hview (store : Store) : store.countWonPurchases customerId
      = (store.quotes.map QuoteAggregate.visible).countP fun item =>
          item.quote.customerId = customerId && isWon item.quote.status := by
    rw [List.countP_map]
    rfl
  rw [hview, hview, h.quotes]

/-- The lists of negotiations agree but for the staff. -/
theorem SameVisible.listNegotiations (h : SameVisible w w') (quoteId : Id) :
    (w'.store.listNegotiations quoteId).map NegotiationRequest.unsigned
      = (w.store.listNegotiations quoteId).map NegotiationRequest.unsigned := by
  have hview (store : Store) :
      (store.listNegotiations quoteId).map NegotiationRequest.unsigned
        = sortBy (fun a b => (a.createdAt : Num) - b.createdAt)
            ((store.negotiations.map NegotiationRequest.unsigned).filter
              fun item => item.quoteId = quoteId) := by
    unfold Store.listNegotiations sortBy
    rw [List.filter_map]
    exact List.map_insertionSort _ _ NegotiationRequest.unsigned _ fun a _ b _ => Iff.rfl
  rw [hview, hview, h.negotiations]

theorem eq_of_unsigned {l l' : List NegotiationRequest}
    (hunsigned : l'.map NegotiationRequest.unsigned = l.map NegotiationRequest.unsigned) :
    l' = l ↔ l'.map NegotiationRequest.staff = l.map NegotiationRequest.staff := by
  constructor
  · intro h
    rw [h]
  · intro hstaff
    induction l generalizing l' with
    | nil => exact List.map_eq_nil_iff.mp hunsigned
    | cons request l ih =>
        obtain ⟨request', rest, rfl, hhead, htail⟩ := List.map_eq_cons_iff.mp hunsigned
        rw [List.map_cons, List.map_cons, List.cons.injEq] at hstaff
        rw [ih htail hstaff.2]
        have hactor : request'.actorId = request.actorId := congrArg Prod.fst hstaff.1
        have hresponded : request'.respondedBy = request.respondedBy := congrArg Prod.snd hstaff.1
        have hsame : request' = request := by
          cases request
          cases request'
          simp only [NegotiationRequest.unsigned, NegotiationRequest.mk.injEq] at hhead hactor hresponded ⊢
          simp only [hhead, hactor, hresponded, and_self]
        rw [hsame]

/-- The portal's view of a quote is a view of its visible part. -/
theorem portalViewOf_visible (options : Options) (store : Store) (a : QuoteAggregate)
    (pairs : List (QuoteLine × Product)) (won : ℕ) (negotiations : List NegotiationRequest) :
    portalViewOf options store a.visible pairs won negotiations
      = portalViewOf options store a pairs won negotiations := rfl

@[simp] theorem negotiations_portalViewOf (options : Options) (store : Store) (a : QuoteAggregate)
    (pairs : List (QuoteLine × Product)) (won : ℕ) (negotiations : List NegotiationRequest) :
    (portalViewOf options store a pairs won negotiations).negotiations = negotiations := rfl

theorem SameVisible.getCustomer (h : SameVisible w w') (id : Id) :
    w'.store.getCustomer id = w.store.getCustomer id := by
  rw [h.store]
  rfl

theorem SameVisible.pairProducts (h : SameVisible w w') (lines : List QuoteLine) :
    pairProducts w'.store lines = pairProducts w.store lines := by
  have hproduct (id : Id) : w'.store.getProduct id = w.store.getProduct id := by
    rw [h.store]
    rfl
  induction lines with
  | nil => rfl
  | cons line lines ih => rw [DealFlow360.pairProducts, DealFlow360.pairProducts, hproduct, ih]

theorem SameVisible.viewOf (h : SameVisible w w') (options : Options) (a : QuoteAggregate)
    (pairs : List (QuoteLine × Product)) (won : ℕ) (negotiations : List NegotiationRequest) :
    portalViewOf options w'.store a pairs won negotiations
      = portalViewOf options w.store a pairs won negotiations := by
  rw [h.store]
  rfl

end Visible

/-! ## Noninterference -/

/-- The negotiations of the quote behind the token name the same staff in both worlds; of a quote whose
customer or products are not on file nothing is asked. -/
def AgreeOnStaff (w w' : World) (token : Id) : Prop :=
  ∀ q, w.store.storedByToken token = some q →
    (w.store.getCustomer q.quote.customerId).isSome = true →
    (∀ line ∈ q.lines, (w.store.getProduct line.productId).isSome = true) →
    (w'.store.listNegotiations q.id).map NegotiationRequest.staff
      = (w.store.listNegotiations q.id).map NegotiationRequest.staff

section Answers

variable {env : Env} {token : Id} {w : World} {q : QuoteAggregate}

theorem answer_of_unknown (hfind : w.store.storedByToken token = none) :
    answer (portalPayload env token) w = .error (notFound "Quote portal token is invalid") := by
  rw [answer_portalPayload, findByToken, hfind]
  rfl

theorem answer_of_stranded (hfind : w.store.storedByToken token = some q)
    (hcustomer : w.store.getCustomer q.quote.customerId = none) :
    answer (portalPayload env token) w = .error (internal "Customer missing on quote") := by
  rw [answer_portalPayload, findByToken, hfind]
  dsimp only
  rw [Store.attach, hcustomer]
  rfl

theorem answer_of_unpriced {customer : Customer} {e : DomainError}
    (hfind : w.store.storedByToken token = some q)
    (hcustomer : w.store.getCustomer q.quote.customerId = some customer)
    (hpairs : pairProducts w.store q.lines = .error e) :
    answer (portalPayload env token) w = .error e := by
  rw [answer_portalPayload, findByToken, hfind]
  dsimp only
  rw [Store.attach, hcustomer]
  show (pairProducts w.store q.lines >>= fun _ => _) = _
  rw [hpairs]
  rfl

/-- What the portal answers about a quote whose customer and products are on file. -/
theorem answer_of_found {customer : Customer} {pairs : List (QuoteLine × Product)}
    (hfind : w.store.storedByToken token = some q)
    (hcustomer : w.store.getCustomer q.quote.customerId = some customer)
    (hpairs : pairProducts w.store q.lines = .ok pairs) :
    answer (portalPayload env token) w = .ok (portalViewOf env.options w.store { q with customer }
      pairs (w.store.countWonPurchases customer.id) (w.store.listNegotiations q.id)) := by
  rw [answer_portalPayload, findByToken, hfind]
  dsimp only
  rw [Store.attach, hcustomer]
  show (pairProducts w.store q.lines >>= fun _ => _) = _
  rw [hpairs]
  rfl

end Answers

/-- The views of two quotes that look the same to the customer differ in their negotiations at most. -/
theorem SameVisible.view {w w' : World} (h : SameVisible w w') {q q' : QuoteAggregate}
    (hvisible : q'.visible = q.visible) (options : Options) (customer : Customer)
    (pairs : List (QuoteLine × Product)) (negotiations : List NegotiationRequest) :
    portalViewOf options w'.store { q' with customer } pairs
        (w'.store.countWonPurchases customer.id) negotiations
      = portalViewOf options w.store { q with customer } pairs
        (w.store.countWonPurchases customer.id) negotiations := by
  have hcopy : ({ q' with customer } : QuoteAggregate).visible
      = ({ q with customer } : QuoteAggregate).visible :=
    congrArg (fun v : QuoteAggregate => { v with customer }) hvisible
  rw [h.viewOf, h.countWonPurchases, ← portalViewOf_visible, hcopy, portalViewOf_visible]

/-- Views of one quote are the same if and only if they pass on the same negotiations. -/
theorem portalViewOf_inj {options : Options} {store : Store} {a : QuoteAggregate}
    {pairs : List (QuoteLine × Product)} {won : ℕ} {l l' : List NegotiationRequest} :
    portalViewOf options store a pairs won l' = portalViewOf options store a pairs won l ↔ l' = l := by
  constructor
  · intro h
    have hnegotiations := congrArg PortalView.negotiations h
    rw [negotiations_portalViewOf, negotiations_portalViewOf] at hnegotiations
    exact hnegotiations
  · intro h
    rw [h]

/-- In worlds a customer cannot tell apart by anything but staff, the portal answers the same if and
only if the negotiations of the quote name the same staff. -/
theorem portal_noninterference_iff (env : Env) (token : Id) (w w' : World) (h : SameVisible w w') :
    answer (portalPayload env token) w' = answer (portalPayload env token) w ↔
      AgreeOnStaff w w' token := by
  have hfound := h.storedByToken token
  cases hfind : w.store.storedByToken token with
  | none =>
      rw [hfind, Option.map_none, Option.map_eq_none_iff] at hfound
      rw [answer_of_unknown hfind, answer_of_unknown hfound]
      refine iff_of_true (Eq.refl _) fun q hq => ?_
      rw [hfind] at hq
      cases hq
  | some q =>
      rw [hfind, Option.map_some, Option.map_eq_some_iff] at hfound
      obtain ⟨q', hfind', hvisible⟩ := hfound
      have hagree : AgreeOnStaff w w' token ↔
          ((w.store.getCustomer q.quote.customerId).isSome = true →
            (∀ line ∈ q.lines, (w.store.getProduct line.productId).isSome = true) →
              w'.store.listNegotiations q.id = w.store.listNegotiations q.id) := by
        rw [eq_of_unsigned (h.listNegotiations q.id)]
        constructor
        · exact fun hstaff => hstaff q hfind
        · intro hstaff other hother
          obtain rfl := Option.some.inj (hfind.symm.trans hother)
          exact hstaff
      rw [hagree]
      have hcustomer' : w'.store.getCustomer q'.quote.customerId
          = w.store.getCustomer q.quote.customerId := by
        rw [h.getCustomer, eq_of_visible (fun q => q.quote.customerId) hvisible]
      have hpairs' : pairProducts w'.store q'.lines = pairProducts w.store q.lines := by
        rw [h.pairProducts, eq_of_visible (fun q => q.lines) hvisible]
      cases hcustomer : w.store.getCustomer q.quote.customerId with
      | none =>
          rw [hcustomer] at hcustomer'
          rw [answer_of_stranded hfind hcustomer, answer_of_stranded hfind' hcustomer']
          exact iff_of_true (Eq.refl _) fun hsome => absurd hsome (by decide)
      | some customer =>
          rw [hcustomer] at hcustomer'
          cases hpairs : pairProducts w.store q.lines with
          | error e =>
              rw [hpairs] at hpairs'
              rw [answer_of_unpriced hfind hcustomer hpairs,
                answer_of_unpriced hfind' hcustomer' hpairs']
              refine iff_of_true (Eq.refl _) fun _ hknown => ?_
              obtain ⟨pairs, hok⟩ := pairs_of_known hknown
              rw [hpairs] at hok
              cases hok
          | ok pairs =>
              rw [hpairs] at hpairs'
              have hknown (line : QuoteLine) (hline : line ∈ q.lines) :
                  (w.store.getProduct line.productId).isSome = true := known_of_pairs hpairs hline
              rw [answer_of_found hfind hcustomer hpairs, answer_of_found hfind' hcustomer' hpairs',
                h.view hvisible, eq_of_visible (fun q => q.id) hvisible, Except.ok.injEq,
                portalViewOf_inj]
              exact ⟨fun heq _ _ => heq, fun hstaff => hstaff rfl hknown⟩

deriving instance DecidableEq for Store

instance (w w' : World) : Decidable (SameVisible w w') :=
  decidable_of_iff
    (w'.store = { w.store with quotes := w'.store.quotes, negotiations := w'.store.negotiations } ∧
      w'.store.quotes.map QuoteAggregate.visible = w.store.quotes.map QuoteAggregate.visible ∧
      w'.store.negotiations.map NegotiationRequest.unsigned
        = w.store.negotiations.map NegotiationRequest.unsigned)
    ⟨fun ⟨hstore, hquotes, hnegotiations⟩ => ⟨hstore, hquotes, hnegotiations⟩,
      fun h => ⟨h.store, h.quotes, h.negotiations⟩⟩

/-- A deal owned, reviewed and frozen by one of the staff. -/
def staffedDeal (staff : Actor) : List Request :=
  [{ operation := .createQuote 1 (some staff.id)
       [{ productId := 11, quantity := 2, discountPercent := 0 }] staff },
   { operation := .edit (.sendNegotiationToManager 100 none 1) },
   { operation := .edit (.finalizeQuotation 100 staff 2) }]

/-- The portal does not tell who of the staff handled a quote. -/
theorem portal_noninterference_staffed :
    let env : Env := { options := plainOptions, outside := {} }
    let ada := serveAll plainOptions startWorld (staffedDeal administrator)
    let bob := serveAll plainOptions startWorld (staffedDeal { administrator with id := "bob" })
    ada.store.quotes ≠ bob.store.quotes ∧
      answer (portalPayload env 101) bob = answer (portalPayload env 101) ada := by
  intro env ada bob
  refine ⟨by decide +kernel, ?_⟩
  refine (portal_noninterference_iff env 101 ada bob (by decide +kernel)).mpr fun q hq _ _ => ?_
  have hnone : ada.store.negotiations = [] ∧ bob.store.negotiations = [] := by decide +kernel
  unfold Store.listNegotiations
  rw [hnone.1, hnone.2]

/-- A note that one of the staff attached to a quote. -/
def notedDeal (staff : Actor) : List Request :=
  [{ operation := .createQuote 1 none [{ productId := 11, quantity := 2, discountPercent := 0 }]
       administrator },
   { operation := .edit (.createNegotiationRequest 100 { note := "five, please" } (some staff)) }]

/-- The portal tells who of the staff attached a note. -/
theorem portal_interference :
    let env : Env := { options := plainOptions, outside := {} }
    let ada := serveAll plainOptions startWorld (notedDeal administrator)
    let bob := serveAll plainOptions startWorld (notedDeal { administrator with id := "bob" })
    SameVisible ada bob ∧ answer (portalPayload env 101) bob ≠ answer (portalPayload env 101) ada ∧
      ((answer (portalPayload env 101) ada).toOption.map fun view => view.negotiations.map (·.actorId))
        = some [some "ada"] := by
  decide +kernel

end DealFlow360
