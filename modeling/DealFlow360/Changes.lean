import DealFlow360.Frames

/-!
# What each edit does to its quote

The body of a quote forgets what every assessment re-derives, and the
revisions; its core also forgets what every read attaches. Up to the body,
`Change` says once for each kind of edit when it is allowed and what it makes
of the quote; every invariant of the quotes is read off it.

Every edit of the service is one `Change`. The relation has one case for each
kind of edit, with the guard under which it is allowed and what it makes of the
body: the status, the lines, the approvals, the negotiations, the schedules,
the allocations. `change_of_edit` proves it of every mutation, by going once
through all their branches; nothing after this module unfolds an edit.

Then come the facts that every change keeps: whose quote it is, the version
that counts up, which edits can change the lines, what a lock and a decision
take. The invariants of the modules about runs are short case analyses of
`Change`.
-/

namespace DealFlow360

open Program

/-- The customer slot of a forgotten attachment. -/
def noCustomer : Customer where
  id := 0
  name := ""
  email := ""
  tier := .standard

/-- A quote up to what every assessment re-derives and to its revisions. -/
def QuoteAggregate.body (aggregate : QuoteAggregate) : QuoteAggregate :=
  { aggregate with
    products := []
    revisions := []
    quote :=
      { aggregate.quote with
        listTotal := 0
        discountTotal := 0
        netTotal := 0
        costTotal := 0
        marginPercent := 0
        blendedDiscountPercent := 0
        riskScore := 0
        assessmentDecision := .allowed
        requiredChainId := none
        taxTotal := 0
        updatedAt := 0 } }

/-- A quote up to what every read attaches as well. -/
def QuoteAggregate.core (aggregate : QuoteAggregate) : QuoteAggregate :=
  { aggregate.body with customer := noCustomer }

/-- What the body keeps agrees on quotes with one body. -/
theorem eq_of_body {β : Type} {a b : QuoteAggregate} (f : QuoteAggregate → β)
    (h : a.body = b.body) (hf : ∀ c : QuoteAggregate, f c.body = f c) :
    f a = f b := by
  rw [← hf a, ← hf b, h]

/-- What the core keeps agrees on quotes with one core. -/
theorem eq_of_core {β : Type} {a b : QuoteAggregate} (f : QuoteAggregate → β)
    (h : a.core = b.core) (hf : ∀ c : QuoteAggregate, f c.core = f c) :
    f a = f b := by
  rw [← hf a, ← hf b, h]

theorem core_of_body {a b : QuoteAggregate} (h : a.body = b.body) : a.core = b.core := by
  unfold QuoteAggregate.core
  rw [h]

@[simp] theorem body_applyAssessment (options : Options) (store : Store) (a : QuoteAggregate)
    (assessment : QuoteAssessment) : (applyAssessment options store a assessment).body = a.body := rfl

theorem body_bumpVersion (a : QuoteAggregate) : (bumpVersion a).body = bumpVersion a.body := rfl

theorem core_attach {store : Store} {a b : QuoteAggregate} (h : store.attach a = .ok b) :
    b.core = a.core := by
  unfold Store.attach at h
  split at h
  · cases h
  · obtain rfl := Except.ok.inj h
    rfl

/-! ## Spec lemmas of the helpers -/

@[simp] theorem randomUUID_eq_ok {w w' : World} {id : Id} :
    randomUUID w = .ok id w' ↔ w.nextUuid = id ∧ { w with nextUuid := w.nextUuid + 1 } = w' := by
  unfold randomUUID
  simp [and_comm]

@[simp] theorem randomUUIDs_eq_ok {count : ℕ} {w w' : World} {uuid : ℕ → Id} :
    randomUUIDs count w = .ok uuid w' ↔
      (fun index => w.nextUuid + index) = uuid ∧
        { w with nextUuid := w.nextUuid + count } = w' := by
  unfold randomUUIDs
  simp only [bind_eq_ok, read_eq_ok, write_eq_ok, pure_eq_ok]
  constructor
  · rintro ⟨base, w₁, ⟨rfl, rfl⟩, _, w₂, rfl, rfl, rfl⟩
    exact ⟨rfl, rfl⟩
  · rintro ⟨rfl, rfl⟩
    exact ⟨_, _, ⟨rfl, rfl⟩, ⟨⟩, _, rfl, rfl, rfl⟩

@[simp] theorem updateStore_eq_ok {f : Store → Store} {w w' : World} {u : PUnit} :
    updateStore f w = .ok u w' ↔ { w with store := f w.store } = w' := by
  unfold updateStore
  simp

@[simp] theorem assertExpectedVersion_eq_ok {a : QuoteAggregate} {version : ℕ} {w w' : World}
    {u : PUnit} :
    assertExpectedVersion a version w = .ok u w' ↔ a.quote.version = version ∧ w = w' := by
  unfold assertExpectedVersion
  simp

@[simp] theorem moveTo_eq_ok {a b : QuoteAggregate} {target : QuoteStatus} {w w' : World} :
    moveTo a target w = .ok b w' ↔
      (a.quote.status = target ∨ Transition a.quote.status target) ∧
        setStatus a target = b ∧ w = w' := by
  unfold moveTo
  simp only [bind_eq_ok, lift_eq_ok, pure_eq_ok, assertTransition_eq_ok]
  constructor
  · rintro ⟨_, _, ⟨hmove, rfl⟩, rfl, rfl⟩
    exact ⟨hmove, rfl, rfl⟩
  · rintro ⟨hmove, rfl, rfl⟩
    exact ⟨⟨⟩, w, ⟨hmove, rfl⟩, rfl, rfl⟩

theorem refreshAssessment_eq_ok {options : Options} {a : QuoteAggregate} {w w' : World}
    {refreshed : QuoteAggregate × QuoteAssessment} :
    refreshAssessment options a w = .ok refreshed w' ↔
      ∃ pairs, pairProducts w.store a.lines = .ok pairs ∧
        (let assessment := assessQuote (assessmentInput options w.store a.customer.tier pairs)
         (applyAssessment options w.store a assessment, assessment) = refreshed) ∧ w = w' := by
  unfold refreshAssessment
  simp only [bind_eq_ok, read_eq_ok, lift_eq_ok, pure_eq_ok]
  constructor
  · rintro ⟨_, _, ⟨rfl, rfl⟩, pairs, _, ⟨hpairs, rfl⟩, rfl, rfl⟩
    exact ⟨pairs, hpairs, rfl, rfl⟩
  · rintro ⟨pairs, hpairs, rfl, rfl⟩
    exact ⟨_, _, ⟨rfl, rfl⟩, pairs, _, ⟨hpairs, rfl⟩, rfl, rfl⟩

theorem body_of_refresh {options : Options} {a : QuoteAggregate} {w w' : World}
    {refreshed : QuoteAggregate × QuoteAssessment}
    (h : refreshAssessment options a w = .ok refreshed w') : refreshed.1.body = a.body ∧ w' = w := by
  obtain ⟨pairs, -, rfl, rfl⟩ := refreshAssessment_eq_ok.mp h
  exact ⟨rfl, rfl⟩

/-- What a permitted commercial write says about the quote. -/
theorem assertCommercialWrite_ok {options : Options} {a : QuoteAggregate} {actor : Actor}
    {discounts : List Num} {overrides : List PriceOverride} {w w' : World} {u : PUnit}
    (h : assertCommercialWrite options a actor discounts overrides w = .ok u w') :
    w' = w ∧ canMutateCommercials a.quote.status = true ∧ a.quote.financeLockedAt = none := by
  have hworld : w' = w := readOnly_of_ok h
  unfold assertCommercialWrite at h
  simp only [bind_eq_ok, throwIf_eq_ok] at h
  obtain ⟨-, _, ⟨hlocked, rfl⟩, -, _, ⟨hopen, rfl⟩, -⟩ := h
  refine ⟨hworld, not_not.mp hopen, ?_⟩
  cases hat : a.quote.financeLockedAt with
  | none => rfl
  | some at_ => simp [isCommerciallyLocked, hat] at hlocked

@[simp] theorem body_finishMutation {env : Env} {a b : QuoteAggregate} {actor : Actor}
    {material : Bool} {w w' : World} (h : finishMutation env a actor material w = .ok b w') :
    b.body = (bumpVersion a).body := by
  unfold finishMutation at h
  cases material with
  | false =>
      obtain ⟨rfl, rfl⟩ := pure_eq_ok.mp h
      rfl
  | true =>
      simp only [if_true, appendRevision, bind_eq_ok, pure_eq_ok] at h
      obtain ⟨_, _, -, rfl, -⟩ := h
      rfl

/-- Outside the approval pipeline a material change only flags itself. -/
theorem body_maybeReapprove {options : Options} {a : QuoteAggregate} {before : Standing}
    {reapprove : QuoteAggregate × Bool} {w w' : World} (hstatus : a.quote.status ≠ .approved)
    (h : maybeReapprove options a before w = .ok reapprove w') : reapprove.1.body = a.body := by
  unfold maybeReapprove at h
  simp only [bind_eq_ok] at h
  obtain ⟨refreshed, w₁, hrefresh, store, _, -, h⟩ := h
  obtain ⟨hbody, -⟩ := body_of_refresh hrefresh
  have hrefreshed : refreshed.1.quote.status ≠ .approved := by
    rw [eq_of_body (fun c => c.quote.status) hbody (fun _ => rfl)]
    exact hstatus
  split at h
  · obtain ⟨rfl, -⟩ := pure_eq_ok.mp h
    exact hbody
  · obtain ⟨rfl, -⟩ := pure_eq_ok.mp h
    exact hbody

theorem body_settleEdit {env : Env} {a b : QuoteAggregate} {before : Standing} {actor : Actor}
    {w w' : World} (hopen : canMutateCommercials a.quote.status = true)
    (h : settleEdit env a before actor w = .ok b w') : b.body = (bumpVersion a).body := by
  have hstatus : a.quote.status ≠ .approved := by
    intro hstatus
    rw [hstatus] at hopen
    cases hopen
  unfold settleEdit at h
  simp only [bind_eq_ok] at h
  obtain ⟨reapprove, _, hreapprove, hfinish⟩ := h
  rw [body_finishMutation hfinish, body_bumpVersion, body_maybeReapprove hstatus hreapprove]
  rfl

/-! ## The kinds of edit -/

/-- The line `toLine` makes of a product. -/
def newLine (store : Store) (id quoteId : Id) (product : Product) (input : LineInput) :
    QuoteLine where
  id := id
  quoteId := quoteId
  productId := product.id
  quantity := input.quantity
  listPrice := (resolveUnitPrice product input.quantity store.quantityBreaks none).unitPrice
  discountPercent := input.discountPercent
  unitCost := product.cost

theorem toLine_eq_ok {quoteId : Id} {input : LineInput} {line : QuoteLine} {w w' : World}
    (h : toLine quoteId input w = .ok line w') :
    ∃ product, w.store.getProduct input.productId = some product ∧
      line = newLine w.store w.nextUuid quoteId product input ∧
      w' = { w with nextUuid := w.nextUuid + 1 } := by
  unfold toLine at h
  simp only [bind_eq_ok, throwIf_eq_ok, read_eq_ok, orThrow_eq_ok, pure_eq_ok,
    randomUUID_eq_ok] at h
  obtain ⟨_, _, ⟨-, rfl⟩, _, _, ⟨-, rfl⟩, _, _, ⟨rfl, rfl⟩, product, _, ⟨hproduct, rfl⟩, _, _,
    ⟨-, rfl⟩, id, _, ⟨rfl, rfl⟩, rfl, rfl⟩ := h
  exact ⟨product, hproduct, rfl, rfl⟩

/-- What creating a quote prepares: a draft of its own, whose lines are new lines with ids of their
own. -/
structure Drafted (customerId : Id) (inputs : List LineInput) (w w' : World) (b : QuoteAggregate) :
    Prop where
  id : b.id = w.nextUuid
  next : w.nextUuid < w'.nextUuid
  status : b.quote.status = .draft
  unlocked : b.quote.financeLockedAt = none
  customerId : b.quote.customerId = customerId
  customer : w.store.getCustomer b.quote.customerId = some b.customer
  approvals : b.approvals = []
  allocations : b.allocations = []
  lines : ∀ line ∈ b.lines, ∃ id product, ∃ input ∈ inputs,
    w.store.getProduct input.productId = some product ∧
      line = newLine w.store id b.id product input ∧ w.nextUuid < id ∧ id < w'.nextUuid
  distinct : (b.lines.map (·.id)).Nodup

theorem newLine_of_quiet {w w' : World} (h : QuietFrame w w') (id quoteId : Id) (product : Product)
    (input : LineInput) :
    newLine w'.store id quoteId product input = newLine w.store id quoteId product input := by
  rw [h.store]
  rfl

/-- The lines of a draft while they are being made. -/
structure Lining (inputs : List LineInput) (w : World) (quoteId : Id) (lines : List QuoteLine)
    (w' : World) : Prop where
  frame : QuietFrame w w'
  next : w.nextUuid + 1 < w'.nextUuid
  made : ∀ line ∈ lines, ∃ id product, ∃ input ∈ inputs,
    w.store.getProduct input.productId = some product ∧
      line = newLine w.store id quoteId product input ∧ w.nextUuid < id ∧ id < w'.nextUuid
  distinct : (lines.map (·.id)).Nodup

theorem Lining.append {inputs : List LineInput} {w w₁ w₂ : World} {quoteId : Id}
    {lines : List QuoteLine} {input : LineInput} {line : QuoteLine}
    (h : Lining inputs w quoteId lines w₁) (hinput : input ∈ inputs)
    (hline : toLine quoteId input w₁ = .ok line w₂) :
    Lining inputs w quoteId (lines ++ [line]) w₂ := by
  obtain ⟨product, hproduct, rfl, rfl⟩ := toLine_eq_ok hline
  have hstep : QuietFrame w₁ { w₁ with nextUuid := w₁.nextUuid + 1 } :=
    ⟨rfl, Nat.le_succ _, rfl, rfl⟩
  refine ⟨IsTrans.trans _ _ _ h.frame hstep, h.next.trans (Nat.lt_succ_self _), ?_, ?_⟩
  · intro line hmem
    rcases List.mem_append.mp hmem with hmem | hmem
    · obtain ⟨id, product, input, hmade, hproduct, hline, hlow, hhigh⟩ := h.made line hmem
      exact ⟨id, product, input, hmade, hproduct, hline, hlow, hhigh.trans (Nat.lt_succ_self _)⟩
    · obtain rfl := List.mem_singleton.mp hmem
      rw [h.frame.store] at hproduct
      refine ⟨w₁.nextUuid, product, input, hinput, hproduct, newLine_of_quiet h.frame .., ?_, ?_⟩
      · have := h.next
        omega
      · exact Nat.lt_succ_self _
  · rw [List.map_append, List.nodup_append]
    refine ⟨h.distinct, List.nodup_singleton _, ?_⟩
    intro id hid id' hid' heq
    obtain rfl := List.mem_singleton.mp hid'
    obtain ⟨line, hmem, rfl⟩ := List.mem_map.mp hid
    obtain ⟨id, product, input, -, -, rfl, -, hhigh⟩ := h.made line hmem
    exact absurd heq (Nat.ne_of_lt hhigh)

theorem draftQuote_eq_ok {env : Env} {customerId : Id} {ownerId : Option String}
    {inputs : List LineInput} {actor : Actor} {w w' : World} {b : QuoteAggregate}
    (h : draftQuote env customerId ownerId inputs actor w = .ok b w') :
    Drafted customerId inputs w w' b := by
  simp only [draftQuote, bind_eq_ok, read_eq_ok, orThrow_eq_ok, randomUUID_eq_ok, pure_eq_ok] at h
  obtain ⟨_, _, ⟨rfl, rfl⟩, customer, _, ⟨hcustomer, rfl⟩, _, _, ⟨rfl, rfl⟩, number, w₂, hnumber, _,
    _, ⟨rfl, rfl⟩, _, w₃, hguard, lines, _, hlines, rfl, rfl⟩ := h
  obtain ⟨rfl, -, -⟩ := assertCommercialWrite_ok hguard
  have hnumbered : QuietFrame { w with nextUuid := w.nextUuid + 1 } w₂ := Keeps.of_ok hnumber
  have hnext : w.nextUuid + 1 ≤ w₂.nextUuid := hnumbered.nextUuid
  have hstart : Lining inputs w w.nextUuid [] { w₂ with nextUuid := w₂.nextUuid + 1 } :=
    { frame :=
        { store := hnumbered.store
          nextUuid := by
            show w.nextUuid ≤ w₂.nextUuid + 1
            omega
          outbox := hnumbered.outbox
          consumed := hnumbered.consumed }
      next := Nat.lt_succ_of_le hnext
      made := by simp
      distinct := List.nodup_nil }
  have hend := foldlM_invariant (Lining inputs w w.nextUuid) inputs (by
    intro input hinput lines w₁ lines' w₂ hlining hstep
    simp only [bind_eq_ok, pure_eq_ok] at hstep
    obtain ⟨line, _, hline, rfl, rfl⟩ := hstep
    exact hlining.append hinput hline) [] _ lines _ hstart hlines
  have hcustomerId : customer.id = customerId := by simpa using List.find?_some hcustomer
  exact
    { id := rfl
      next := (Nat.lt_succ_self _).trans hend.next
      status := rfl
      unlocked := rfl
      customerId := hcustomerId
      customer := by
        show w.store.getCustomer customer.id = some customer
        rw [hcustomerId]
        exact hcustomer
      approvals := rfl
      allocations := rfl
      lines := hend.made
      distinct := hend.distinct }

/-- The lines a negotiation request leaves: only the customer's side restates quantities. -/
def requestedQuantities (lines : List QuoteLine) (input : NegotiationInput)
    (role : Option String) : List QuoteLine :=
  if isCustomerRole role then input.requestedLines.foldl setRequestedQuantity lines else lines

/-- The lines an edit leaves where it may change them, as its operation computes them from the
loaded quote and the world `w`; `w'` is the world after the edit. -/
inductive Relines (env : Env) (w w' : World) (a : QuoteAggregate) : QuoteEdit → List QuoteLine → Prop
  | addLine {quoteId input version actor line w₁} (hline : toLine quoteId input w = .ok line w₁)
      (hid : w₁.nextUuid ≤ w'.nextUuid) :
      Relines env w w' a (.addLine quoteId input version actor) (a.lines ++ [line])
  | updateLine {quoteId lineId input version actor found line rulePrice w₁}
      (hfound : findLine a.lines lineId = some found)
      (hrule : ∀ product, w.store.getProduct found.productId = some product →
        rulePrice = rulePriceFor w.store a.customer.tier product (input.restate found).quantity)
      (hline : input.reprice quoteId rulePrice (input.restate found) w = .ok line w₁) :
      Relines env w w' a (.updateLine quoteId lineId input version actor)
        (editLine lineId (fun _ => line) a.lines)
  | removeLine {quoteId lineId version actor} :
      Relines env w w' a (.removeLine quoteId lineId version actor)
        (a.lines.filter fun item => item.id ≠ lineId)
  | applyRecommendation {quoteId relationId actor version line w₁} {relation : ProductRelation}
      (hrelation : findRecommendation w.store a.lines relationId = .ok relation)
      (hline : toLine quoteId
        { productId := relation.recommendedProductId, quantity := 1, discountPercent := 0 } w
          = .ok line w₁)
      (hid : w₁.nextUuid ≤ w'.nextUuid) :
      Relines env w w' a (.applyRecommendation quoteId relationId actor version)
        (a.lines ++ [{ line with recommendedFromId := some relation.id }])
  | reviseAsManager {quoteId changes version actor revised}
      (hrevised : changes.foldlM (reviseLine w.store a.customer.tier) (a.lines, []) = .ok revised) :
      Relines env w w' a (.reviseAsManager quoteId changes version actor) revised.1
  | createNegotiationRequest {quoteId input actor} :
      Relines env w w' a (.createNegotiationRequest quoteId input actor)
        (requestedQuantities a.lines input (input.actorRole.or (actor.bind (·.role))))
  | createPortalNegotiation {token input} :
      Relines env w w' a (.createPortalNegotiation token input)
        (requestedQuantities a.lines input (some "customer"))
  | applyPortalChange {token version changes lines}
      (hlines : changes.foldlM (changeLine w.store a.customer.tier) a.lines = .ok lines) :
      Relines env w w' a (.applyPortalChange token version changes) lines
  | respondToNegotiation {quoteId negotiationId note version actor request lines w₁}
      (hrequest : findNegotiation w.store quoteId negotiationId = .ok request)
      (hlines : request.requestedLines.foldlM (acceptRequested env a actor) a.lines w
        = .ok lines w₁) :
      Relines env w w' a (.respondToNegotiation quoteId negotiationId .accepted note version actor)
        lines

/-- The operations a salesperson or manager edits open commercials with. -/
def QuoteEdit.isCommercial : QuoteEdit → Bool
  | addLine .. | updateLine .. | removeLine .. | applyRecommendation .. | reviseAsManager .. => true
  | _ => false

/-- The operations the customer's side changes lines with. -/
def QuoteEdit.isProposal : QuoteEdit → Bool
  | createNegotiationRequest .. | createPortalNegotiation .. | applyPortalChange .. => true
  | _ => false

/-- The operations that move an open quote and leave its lines alone. -/
def QuoteEdit.isMove : QuoteEdit → Bool
  | startNegotiation .. | sendNegotiationToManager .. | returnRevisedQuote .. => true
  | finalizeQuotation .. | voidQuote .. => true
  | _ => false

/-- The operations that record what the customer decided. -/
def QuoteEdit.isAnswer : QuoteEdit → Bool
  | agreeToFinal .. | applyPortalDecision .. => true
  | _ => false

/-- The status of a quote once `submit` has built its approvals. -/
def submittedStatus (assessment : QuoteAssessment) : QuoteStatus :=
  if assessment.decision = .allowed ∨ assessment.decision = .warning then .approved
  else .approvalRequired

/-- What an edit asks of the quote `a` and makes of it, up to the body; `w` and `w'` are the worlds
before and after the edit. -/
inductive Change (env : Env) (w w' : World) (a b : QuoteAggregate) : QuoteEdit → Prop
  | commercial {op lines} (hop : op.isCommercial = true)
      (hopen : canMutateCommercials a.quote.status = true)
      (hunlocked : a.quote.financeLockedAt = none) (hlines : Relines env w w' a op lines)
      (hbody : b.body = (bumpVersion (withLines a lines)).body) : Change env w w' a b op
  | proposed {op lines} (active : Option Id) (hop : op.isProposal = true)
      (hstatus : a.quote.status = .draft ∨ a.quote.status = .customerNegotiation)
      (hlines : Relines env w w' a op lines)
      (hbody : b.body = (bumpVersion (withLines
        { a with
          quote :=
            { a.quote with status := .customerNegotiation, activeNegotiationId := active } }
        lines)).body) :
      Change env w w' a b op
  | responded {quoteId negotiationId decision note version actor lines} (active : Id)
      (hversion : a.quote.version = version)
      (hlines : lines = a.lines ∨
        Relines env w w' a
          (.respondToNegotiation quoteId negotiationId decision note version actor) lines)
      (hbody : b.body
        = (bumpVersion (setActiveNegotiation (withLines a lines) active)).body) :
      Change env w w' a b
        (.respondToNegotiation quoteId negotiationId decision note version actor)
  | moved {op target} (active : Option Id) (frozenAt : Option Timestamp)
      (frozenBy : Option String) (hop : op.isMove = true)
      (hsource : isWon a.quote.status = false) (hmove : Transition a.quote.status target)
      (htarget : target ∈ [.customerNegotiation, .managerReview, .finalized, .rejected])
      (hbody : b.body = (bumpVersion
        { a with
          quote :=
            { a.quote with
              status := target
              activeNegotiationId := active
              commerciallyFrozenAt := frozenAt
              commerciallyFrozenBy := frozenBy } }).body) :
      Change env w w' a b op
  | submitted {quoteId actor pairs approvals uuid}
      (hstatus : a.quote.status = .finalized)
      (hpairs : pairProducts w.store a.lines = .ok pairs)
      (hdecision : (assessQuote (assessmentInput env.options w.store a.customer.tier pairs)).decision
        ≠ .rejected)
      (happrovals :
        let assessment := assessQuote (assessmentInput env.options w.store a.customer.tier pairs)
        autoApproveIfAllowed uuid env.now quoteId assessment (findChain w.store assessment) actor
          (env.options.governanceOf w.store).maxApprovalLevels = .ok approvals)
      (hbody : b.body = (bumpVersion (setStatus { a with approvals }
        (submittedStatus
          (assessQuote (assessmentInput env.options w.store a.customer.tier pairs))))).body) :
      Change env w w' a b (.submit quoteId actor)
  | decided {quoteId approvalId decision reason actor call approvals target}
      (hstatus : a.quote.status = .approvalRequired)
      (hcall : call.decision = decision)
      (happrovals : applyApprovalDecision a.approvals call = .ok approvals)
      (htarget : target = if decision = .rejected then .rejected
        else if allRequiredApproved approvals then .approved else .approvalRequired)
      (hbody : b.body = (bumpVersion (setStatus { a with approvals } target)).body) :
      Change env w w' a b (.decide quoteId approvalId decision reason actor)
  | answered {op} (decision : CustomerDecision) (decidedAt : Option Timestamp)
      (comment : Option String) (decidedVersion : Option ℕ) (active : Option Id)
      (hop : op.isAnswer = true)
      (hstatus : isWon a.quote.status = false)
      (hbody : b.body = (bumpVersion
        { a with
          quote :=
            { a.quote with
              activeNegotiationId := active
              customerDecision := decision
              customerDecisionAt := decidedAt
              customerDecisionComment := comment
              customerDecisionVersion := decidedVersion } }).body) :
      Change env w w' a b op
  | planned {quoteId overrides version planned}
      (hstatus : isOpenForPlanning a.quote.status = true)
      (hplanned : planAndReserve
        (planInput env w.store (fun index => w.nextUuid + index) a overrides) a.allocations
          = .ok planned)
      (hstock : w'.store.stock = planned.2) (hconsumed : w'.consumed = w.consumed)
      (hbody : b.body = (bumpVersion (adoptPlan a planned.1)).body) :
      Change env w w' a b (.planFulfillment quoteId overrides version)
  | billed {quoteId version schedules} (hstatus : isOpenForBilling a.quote.status = true)
      (hbody : b.body = (bumpVersion (setStatus { a with schedules } .billing)).body) :
      Change env w w' a b (.generateBilling quoteId version)
  | cancelled {quoteId scheduleId version schedules}
      (hbody : b.body = (bumpVersion { a with schedules }).body) :
      Change env w w' a b (.cancelBilling quoteId scheduleId version)
  | locked {quoteId actor version pairs target} (saleOrder : Option ℕ)
      (hstatus : a.quote.status = .approved) (hunlocked : a.quote.financeLockedAt = none)
      (happroved : allRequiredApproved a.approvals = true)
      (hpairs : pairProducts w.store a.lines = .ok pairs)
      (hdecision : (assessQuote (assessmentInput env.options w.store a.customer.tier pairs)).decision
        ≠ .rejected)
      (hconsumed : consumeAllocations a w = .ok ⟨⟩ w')
      (hmoves : Moves .confirmed target)
      (hplanned : a.allocations = [] → a.schedules = [] → target = .confirmed)
      (hbody : b.body = (bumpVersion
        { a with
          quote :=
            { a.quote with
              status := target
              financeLockedAt := some env.now
              financeLockedBy := some actor.id
              odooSaleOrderId := saleOrder } }).body) :
      Change env w w' a b (.confirm quoteId actor version)
  | completed {quoteId version} (hstatus : isWon a.quote.status = true)
      (hbody : b.body = (bumpVersion (setStatus a .completed)).body) :
      Change env w w' a b (.complete quoteId version)

/-! ## Every edit is one of them -/

section Edits

variable {env : Env} {w w' : World} {a b : QuoteAggregate}

theorem addLine_change {quoteId : Id} {input : LineInput} {version : ℕ} {actor : Actor}
    (h : (addLine env quoteId input version actor).edit a w = .ok (some b) w') :
    Change env w w' a b (.addLine quoteId input version actor) := by
  simp only [addLine, Mutation.saving, map_eq_ok, bind_eq_ok, assertExpectedVersion_eq_ok,
    Option.some.injEq] at h
  obtain ⟨_, ⟨_, _, ⟨-, rfl⟩, _, _, hguard, line, w₁, hline, hsettle⟩, rfl⟩ := h
  obtain ⟨rfl, hopen, hunlocked⟩ := assertCommercialWrite_ok hguard
  have hid : w₁.nextUuid ≤ w'.nextUuid := (Keeps.of_ok hsettle : QuietFrame w₁ w').nextUuid
  exact .commercial rfl hopen hunlocked (.addLine hline hid) (body_settleEdit hopen hsettle)

theorem updateLine_change {quoteId lineId : Id} {input : LineUpdate} {version : ℕ} {actor : Actor}
    (h : (updateLine env quoteId lineId input version actor).edit a w = .ok (some b) w') :
    Change env w w' a b (.updateLine quoteId lineId input version actor) := by
  simp only [updateLine, Mutation.saving, map_eq_ok, bind_eq_ok, assertExpectedVersion_eq_ok,
    orThrow_eq_ok, throwIf_eq_ok, read_eq_ok, Option.some.injEq] at h
  obtain ⟨_, ⟨_, _, ⟨-, rfl⟩, found, _, ⟨hfound, rfl⟩, _, _, ⟨-, rfl⟩, _, _, ⟨rfl, rfl⟩, line, w₁,
    hline, _, _, hguard, hsettle⟩, rfl⟩ := h
  obtain ⟨rfl, hopen, hunlocked⟩ := assertCommercialWrite_ok hguard
  refine .commercial rfl hopen hunlocked (.updateLine hfound ?_ hline)
    (body_settleEdit hopen hsettle)
  intro product hproduct
  have hrestated : w.store.getProduct (input.restate found).productId = some product := hproduct
  rw [hrestated]

theorem removeLine_change {quoteId lineId : Id} {version : ℕ} {actor : Actor}
    (h : (removeLine env quoteId lineId version actor).edit a w = .ok (some b) w') :
    Change env w w' a b (.removeLine quoteId lineId version actor) := by
  simp only [removeLine, Mutation.saving, map_eq_ok, bind_eq_ok, assertExpectedVersion_eq_ok,
    Option.some.injEq] at h
  obtain ⟨_, ⟨_, _, ⟨-, rfl⟩, _, _, hguard, hsettle⟩, rfl⟩ := h
  obtain ⟨rfl, hopen, hunlocked⟩ := assertCommercialWrite_ok hguard
  exact .commercial rfl hopen hunlocked .removeLine (body_settleEdit hopen hsettle)

theorem applyRecommendation_change {quoteId relationId : Id} {version : ℕ} {actor : Actor}
    (h : (applyRecommendation env quoteId relationId actor version).edit a w = .ok (some b) w') :
    Change env w w' a b (.applyRecommendation quoteId relationId actor version) := by
  simp only [applyRecommendation, Mutation.saving, map_eq_ok, bind_eq_ok,
    assertExpectedVersion_eq_ok, read_eq_ok, lift_eq_ok, Option.some.injEq] at h
  obtain ⟨_, ⟨_, _, ⟨-, rfl⟩, _, _, hguard, _, _, ⟨rfl, rfl⟩, relation, _, ⟨hrelation, rfl⟩, line, w₁,
    hline, hsettle⟩, rfl⟩ := h
  obtain ⟨rfl, hopen, hunlocked⟩ := assertCommercialWrite_ok hguard
  have hid : w₁.nextUuid ≤ w'.nextUuid := (Keeps.of_ok hsettle : QuietFrame w₁ w').nextUuid
  exact .commercial rfl hopen hunlocked (.applyRecommendation hrelation hline hid)
    (body_settleEdit hopen hsettle)

theorem reviseAsManager_change {quoteId : Id} {changes : List ManagerChange} {version : ℕ}
    {actor : Actor}
    (h : (reviseAsManager env quoteId changes version actor).edit a w = .ok (some b) w') :
    Change env w w' a b (.reviseAsManager quoteId changes version actor) := by
  simp only [reviseAsManager, Mutation.saving, map_eq_ok, bind_eq_ok, assertExpectedVersion_eq_ok,
    throwIf_eq_ok, read_eq_ok, lift_eq_ok, Option.some.injEq] at h
  obtain ⟨_, ⟨_, _, ⟨-, rfl⟩, _, _, ⟨-, rfl⟩, _, _, ⟨rfl, rfl⟩, revised, _, ⟨hrevised, rfl⟩, _, _,
    hguard, _, _, -, hsettle⟩, rfl⟩ := h
  obtain ⟨rfl, hopen, hunlocked⟩ := assertCommercialWrite_ok hguard
  exact .commercial rfl hopen hunlocked (.reviseAsManager hrevised)
    (body_settleEdit hopen hsettle)

theorem createNegotiationRequest_edit {quoteId : Id} {input : NegotiationInput}
    {actor : Option Actor}
    (h : (createNegotiationRequest env quoteId input actor).edit a w = .ok (some b) w') :
    (a.quote.status = .draft ∨ a.quote.status = .customerNegotiation) ∧
      ∃ active : Option Id, b = bumpVersion (withLines
        { a with
          quote :=
            { a.quote with status := .customerNegotiation, activeNegotiationId := active } }
        (requestedQuantities a.lines input (input.actorRole.or (actor.bind (·.role))))) := by
  simp only [createNegotiationRequest, Mutation.saving, map_eq_ok, bind_eq_ok, throwIf_eq_ok,
    read_eq_ok, moveTo_eq_ok, pure_eq_ok, Option.some.injEq] at h
  obtain ⟨_, ⟨_, _, -, _, _, ⟨hopen, rfl⟩, _, _, ⟨rfl, rfl⟩, _, _, ⟨-, rfl⟩, _, _, ⟨-, rfl, rfl⟩, id, _,
    -, _, _, -, rfl, rfl⟩, rfl⟩ := h
  refine ⟨by tauto, some id, ?_⟩
  simp only [requestedQuantities, List.foldl_map]
  rfl

theorem createNegotiationRequest_change {quoteId : Id} {input : NegotiationInput}
    {actor : Option Actor}
    (h : (createNegotiationRequest env quoteId input actor).edit a w = .ok (some b) w') :
    Change env w w' a b (.createNegotiationRequest quoteId input actor) := by
  obtain ⟨hstatus, active, rfl⟩ := createNegotiationRequest_edit h
  exact .proposed active rfl hstatus .createNegotiationRequest rfl

theorem createPortalNegotiation_change {token : Id} {input : NegotiationInput}
    (h : (createPortalNegotiation env token input).edit a w = .ok (some b) w') :
    Change env w w' a b (.createPortalNegotiation token input) := by
  obtain ⟨hstatus, active, rfl⟩ := createNegotiationRequest_edit h
  exact .proposed active rfl hstatus .createPortalNegotiation rfl

theorem requestDiscounts_ok {changes : List PortalLineChange}
    (h : requestDiscounts env a changes w = .ok b w') :
    ∃ active : Option Id, b = { a with quote := { a.quote with activeNegotiationId := active } } := by
  unfold requestDiscounts at h
  generalize changes.filterMap (·.discountPercent) = asked at h
  cases asked with
  | nil =>
      obtain ⟨rfl, -⟩ := pure_eq_ok.mp h
      exact ⟨_, rfl⟩
  | cons first rest =>
      simp only [bind_eq_ok, pure_eq_ok] at h
      obtain ⟨id, _, -, _, _, -, rfl, -⟩ := h
      exact ⟨some id, rfl⟩

theorem applyPortalChange_change {token : Id} {version : ℕ} {changes : List PortalLineChange}
    (h : (applyPortalChange env token version changes).edit a w = .ok (some b) w') :
    Change env w w' a b (.applyPortalChange token version changes) := by
  simp only [applyPortalChange, Mutation.saving, map_eq_ok, bind_eq_ok,
    assertExpectedVersion_eq_ok, throwIf_eq_ok, read_eq_ok, lift_eq_ok, moveTo_eq_ok,
    Option.some.injEq] at h
  obtain ⟨_, ⟨_, _, ⟨-, rfl⟩, _, _, ⟨hopen, rfl⟩, _, _, ⟨-, rfl, rfl⟩, _, _, ⟨rfl, rfl⟩, lines, _,
    ⟨hlines, rfl⟩, edited, _, hedited, hsettle⟩, rfl⟩ := h
  obtain ⟨active, rfl⟩ := requestDiscounts_ok hedited
  exact .proposed active rfl (by tauto) (.applyPortalChange hlines) (body_settleEdit rfl hsettle)

theorem respondToNegotiation_change {quoteId negotiationId : Id} {decision : NegotiationResponse}
    {note : String} {version : ℕ} {actor : Actor}
    (h : (respondToNegotiation env quoteId negotiationId decision note version actor).edit a w
      = .ok (some b) w') :
    Change env w w' a b
      (.respondToNegotiation quoteId negotiationId decision note version actor) := by
  simp only [respondToNegotiation, Mutation.saving, map_eq_ok, bind_eq_ok,
    assertExpectedVersion_eq_ok, read_eq_ok, lift_eq_ok, pure_eq_ok, Option.some.injEq] at h
  obtain ⟨_, ⟨_, _, ⟨hversion, rfl⟩, _, _, ⟨rfl, rfl⟩, request, _, ⟨hrequest, rfl⟩, lines, w₁, hlines,
    _, _, -, rfl, rfl⟩, rfl⟩ := h
  refine .responded request.id hversion ?_ rfl
  split at hlines
  · rename_i haccepted
    subst haccepted
    exact .inr (.respondToNegotiation hrequest hlines)
  · exact .inl (pure_eq_ok.mp hlines).1.symm

theorem startNegotiation_change {quoteId : Id} {actor : Actor}
    (h : (startNegotiation env quoteId actor).edit a w = .ok (some b) w') :
    Change env w w' a b (.startNegotiation quoteId actor) := by
  simp only [startNegotiation, Mutation.saving, map_eq_ok, bind_eq_ok, throwIf_eq_ok, read_eq_ok,
    moveTo_eq_ok, pure_eq_ok, Option.some.injEq] at h
  obtain ⟨_, ⟨_, _, ⟨rfl, rfl⟩, _, _, ⟨-, rfl⟩, _, _, ⟨hopen, rfl⟩, _, _, ⟨hmove, rfl, rfl⟩, rfl, rfl⟩,
    rfl⟩ := h
  have hsource : isWon a.quote.status = false ∧ a.quote.status ≠ .customerNegotiation := by
    revert hopen
    cases a.quote.status <;> decide
  exact .moved _ _ _ rfl hsource.1 (hmove.resolve_left hsource.2) (by decide) rfl

theorem handOver_ok {negotiationId : Option Id} (h : handOver env a negotiationId w = .ok b w') :
    ∃ active : Option Id, b = { a with quote := { a.quote with activeNegotiationId := active } } := by
  unfold handOver at h
  cases negotiationId with
  | none =>
      obtain ⟨rfl, -⟩ := pure_eq_ok.mp h
      exact ⟨_, rfl⟩
  | some negotiationId =>
      simp only [bind_eq_ok, pure_eq_ok] at h
      obtain ⟨_, _, -, request, _, -, _, _, -, rfl, -⟩ := h
      exact ⟨some request.id, rfl⟩

theorem sendNegotiationToManager_change {quoteId : Id} {negotiationId : Option Id} {version : ℕ}
    (h : (sendNegotiationToManager env quoteId negotiationId version).edit a w
      = .ok (some b) w') :
    Change env w w' a b (.sendNegotiationToManager quoteId negotiationId version) := by
  simp only [sendNegotiationToManager, Mutation.saving, map_eq_ok, bind_eq_ok, throwIf_eq_ok,
    assertExpectedVersion_eq_ok, moveTo_eq_ok, pure_eq_ok, Option.some.injEq] at h
  obtain ⟨_, ⟨_, _, ⟨-, rfl⟩, _, _, ⟨hopen, rfl⟩, _, _, ⟨hmove, rfl, rfl⟩, handed, _, hhanded, rfl,
    rfl⟩, rfl⟩ := h
  obtain ⟨active, rfl⟩ := handOver_ok hhanded
  have hsource : isWon a.quote.status = false ∧ a.quote.status ≠ .managerReview := by
    revert hopen
    cases a.quote.status <;> decide
  exact .moved active _ _ rfl hsource.1 (hmove.resolve_left hsource.2) (by decide) rfl

theorem returnRevisedQuote_change {quoteId : Id} {negotiationId : Option Id} {actor : Actor}
    {version : ℕ}
    (h : (returnRevisedQuote env quoteId negotiationId actor version).edit a w
      = .ok (some b) w') :
    Change env w w' a b (.returnRevisedQuote quoteId negotiationId actor version) := by
  simp only [returnRevisedQuote, Mutation.saving, map_eq_ok, bind_eq_ok, throwIf_eq_ok,
    assertExpectedVersion_eq_ok, moveTo_eq_ok, read_eq_ok, pure_eq_ok, Option.some.injEq] at h
  obtain ⟨_, ⟨_, _, ⟨-, rfl⟩, _, _, ⟨hopen, rfl⟩, _, _, ⟨hmove, rfl, rfl⟩, _, _, ⟨rfl, rfl⟩, _, _, -,
    rfl, rfl⟩, rfl⟩ := h
  have hsource : isWon a.quote.status = false ∧ a.quote.status ≠ .customerNegotiation := by
    revert hopen
    cases a.quote.status <;> decide
  exact .moved _ _ _ rfl hsource.1 (hmove.resolve_left hsource.2) (by decide) rfl

theorem finalizeQuotation_change {quoteId : Id} {actor : Actor} {version : ℕ}
    (h : (finalizeQuotation env quoteId actor version).edit a w = .ok (some b) w') :
    Change env w w' a b (.finalizeQuotation quoteId actor version) := by
  simp only [finalizeQuotation, Mutation.saving, map_eq_ok, bind_eq_ok, throwIf_eq_ok,
    assertExpectedVersion_eq_ok, moveTo_eq_ok, appendRevision, pure_eq_ok,
    Option.some.injEq] at h
  obtain ⟨_, ⟨_, _, ⟨-, rfl⟩, _, _, ⟨hopen, rfl⟩, _, _, ⟨hlines, rfl⟩, _, _, ⟨hmove, rfl, rfl⟩, _, _,
    ⟨_, _, -, rfl, rfl⟩, rfl, rfl⟩, rfl⟩ := h
  have hsource : isWon a.quote.status = false ∧ a.quote.status ≠ .finalized := by
    revert hopen
    cases a.quote.status <;> decide
  exact .moved _ (some env.now) (some actor.id) rfl hsource.1 (hmove.resolve_left hsource.2) (by decide) rfl

theorem voidQuote_change {quoteId : Id} {actor : Actor} {version : ℕ}
    (h : (voidQuote env quoteId actor version).edit a w = .ok (some b) w') :
    Change env w w' a b (.voidQuote quoteId actor version) := by
  simp only [voidQuote, Mutation.saving, map_eq_ok, bind_eq_ok, throwIf_eq_ok,
    assertExpectedVersion_eq_ok, moveTo_eq_ok, pure_eq_ok, Option.some.injEq] at h
  obtain ⟨_, ⟨_, _, ⟨-, rfl⟩, _, _, ⟨hunlocked, rfl⟩, _, _, ⟨hvoid, rfl⟩, _, _, ⟨-, rfl⟩, _, _,
    ⟨hmove, rfl, rfl⟩, rfl, rfl⟩, rfl⟩ := h
  have hsource : isWon a.quote.status = false ∧ a.quote.status ≠ .rejected := by
    revert hvoid
    cases a.quote.status <;> decide
  exact .moved _ _ _ rfl hsource.1 (hmove.resolve_left hsource.2) (by decide) rfl

theorem submit_change {quoteId : Id} {actor : Actor}
    (h : (submit env quoteId actor).edit a w = .ok (some b) w') :
    Change env w w' a b (.submit quoteId actor) := by
  simp only [submit, Mutation.saving, map_eq_ok, bind_eq_ok, throwIf_eq_ok, refreshAssessment_eq_ok,
    read_eq_ok, lift_eq_ok, randomUUIDs_eq_ok, moveTo_eq_ok, Option.some.injEq] at h
  obtain ⟨_, ⟨_, _, ⟨hstatus, rfl⟩, _, _, ⟨-, rfl⟩, _, _, ⟨pairs, hpairs, rfl, rfl⟩, _, _,
    ⟨hdecision, rfl⟩, _, _, ⟨rfl, rfl⟩, uuid, _, ⟨-, rfl⟩, approvals, _, ⟨happrovals, rfl⟩, -, rfl,
    rfl⟩, rfl⟩ := h
  exact .submitted (not_not.mp hstatus) hpairs hdecision happrovals rfl

theorem decideApproval_change {quoteId approvalId : Id} {decision : ApprovalDecision}
    {reason : String} {actor : Actor}
    (h : (decideApproval env quoteId approvalId decision reason actor).edit a w
      = .ok (some b) w') :
    Change env w w' a b (.decide quoteId approvalId decision reason actor) := by
  simp only [decideApproval, Mutation.saving, map_eq_ok, bind_eq_ok, throwIf_eq_ok, lift_eq_ok,
    moveTo_eq_ok, pure_eq_ok, Option.some.injEq] at h
  obtain ⟨_, ⟨_, _, ⟨hstatus, rfl⟩, approvals, _, ⟨happrovals, rfl⟩, _, _, ⟨-, rfl, rfl⟩, rfl, rfl⟩,
    rfl⟩ := h
  have hstatus : a.quote.status = .approvalRequired := not_not.mp hstatus
  refine .decided hstatus ?_ happrovals ?_ rfl
  · rfl
  · rw [hstatus]

theorem agreeNegotiation_ok {latest : Option NegotiationRequest}
    (h : agreeNegotiation env a latest w = .ok b w') :
    ∃ active : Option Id, b = { a with quote := { a.quote with activeNegotiationId := active } } := by
  unfold agreeNegotiation at h
  cases latest with
  | none =>
      obtain ⟨rfl, -⟩ := pure_eq_ok.mp h
      exact ⟨_, rfl⟩
  | some request =>
      simp only [bind_eq_ok, pure_eq_ok] at h
      obtain ⟨_, _, -, rfl, -⟩ := h
      exact ⟨some request.id, rfl⟩

theorem agreeToFinal_change {quoteId : Id} {version : ℕ}
    (h : (agreeToFinal env quoteId version).edit a w = .ok (some b) w') :
    Change env w w' a b (.agreeToFinal quoteId version) := by
  simp only [agreeToFinal, Mutation.saving, map_eq_ok, bind_eq_ok, throwIf_eq_ok, read_eq_ok,
    assertExpectedVersion_eq_ok, pure_eq_ok, Option.some.injEq] at h
  obtain ⟨_, ⟨_, _, ⟨-, rfl⟩, _, _, ⟨hopen, rfl⟩, _, _, ⟨rfl, rfl⟩, _, _, ⟨-, rfl⟩, agreed, _, hagreed,
    rfl, rfl⟩, rfl⟩ := h
  obtain ⟨active, rfl⟩ := agreeNegotiation_ok hagreed
  have hsource : isWon a.quote.status = false := by
    revert hopen
    cases a.quote.status <;> decide
  exact .answered .accepted (some env.now) _ (some a.quote.version) active rfl hsource rfl

theorem applyPortalDecision_change {token : Id} {version : ℕ} {action : CustomerDecision}
    {comment : Option String}
    (h : (applyPortalDecision env token version action comment).edit a w = .ok (some b) w') :
    Change env w w' a b (.applyPortalDecision token version action comment) := by
  simp only [applyPortalDecision, bind_eq_ok, throwIf_eq_ok, assertExpectedVersion_eq_ok] at h
  obtain ⟨_, _, ⟨-, rfl⟩, _, _, ⟨hopen, rfl⟩, h⟩ := h
  have hsource : isWon a.quote.status = false := by
    revert hopen
    cases a.quote.status <;> decide
  split at h
  · cases (pure_eq_ok.mp h).1
  · obtain ⟨hsome, -⟩ := pure_eq_ok.mp h
    obtain rfl := Option.some.inj hsome
    exact .answered action (some env.now) comment (some a.quote.version) _ rfl hsource rfl

theorem planFulfillment_change {quoteId : Id} {overrides : List FulfillmentOverride} {version : ℕ}
    (h : (planQuote env quoteId overrides version).edit a w = .ok (some b) w') :
    Change env w w' a b (.planFulfillment quoteId overrides version) := by
  simp only [planQuote, Mutation.saving, map_eq_ok, bind_eq_ok, throwIf_eq_ok, read_eq_ok,
    assertExpectedVersion_eq_ok, randomUUIDs_eq_ok, lift_eq_ok, updateStore_eq_ok, pure_eq_ok,
    Option.some.injEq] at h
  obtain ⟨_, ⟨_, _, ⟨-, rfl⟩, _, _, ⟨hopen, rfl⟩, _, _, ⟨rfl, rfl⟩, _, _, ⟨rfl, rfl⟩, planned, _,
    ⟨hplanned, rfl⟩, _, _, rfl, rfl, rfl⟩, rfl⟩ := h
  exact .planned (not_not.mp hopen) hplanned rfl rfl rfl

theorem generateBilling_change {quoteId : Id} {version : ℕ}
    (h : (generateBilling env quoteId version).edit a w = .ok (some b) w') :
    Change env w w' a b (.generateBilling quoteId version) := by
  simp only [generateBilling, Mutation.saving, map_eq_ok, bind_eq_ok, throwIf_eq_ok,
    assertExpectedVersion_eq_ok, lift_eq_ok, moveTo_eq_ok, pure_eq_ok, Option.some.injEq] at h
  obtain ⟨_, ⟨_, _, ⟨-, rfl⟩, _, _, ⟨hopen, rfl⟩, _, _, -, schedules, _, -, _, _, ⟨-, rfl, rfl⟩, rfl,
    rfl⟩, rfl⟩ := h
  exact .billed (not_not.mp hopen) rfl

theorem cancelBilling_change {quoteId scheduleId : Id} {version : ℕ}
    (h : (cancelBilling env quoteId scheduleId version).edit a w = .ok (some b) w') :
    Change env w w' a b (.cancelBilling quoteId scheduleId version) := by
  simp only [cancelBilling, Mutation.saving, map_eq_ok, bind_eq_ok, assertExpectedVersion_eq_ok,
    lift_eq_ok, pure_eq_ok, Option.some.injEq] at h
  obtain ⟨_, ⟨_, _, ⟨-, rfl⟩, _, _, -, _, _, -, rfl, rfl⟩, rfl⟩ := h
  exact .cancelled rfl

/-- A move that is only made under a condition. -/
theorem moveIf_eq_ok {c : Prop} [Decidable c] {target : QuoteStatus}
    (h : (if c then moveTo a target else pure a) w = .ok b w') :
    ∃ status, b = setStatus a status ∧ Moves a.quote.status status ∧
      (¬c → status = a.quote.status) := by
  split at h
  · rename_i hc
    obtain ⟨hmove, rfl, -⟩ := moveTo_eq_ok.mp h
    refine ⟨target, rfl, ?_, fun hnot => absurd hc hnot⟩
    rcases hmove with hsame | hstep
    · rw [hsame]
    · exact .single hstep
  · obtain ⟨rfl, -⟩ := pure_eq_ok.mp h
    exact ⟨a.quote.status, rfl, .refl, fun _ => rfl⟩

/-- Where the lock leaves a quote: past `confirmed` only if it is planned or billed already. -/
theorem lockStatus_eq_ok (h : lockStatus a w = .ok b w') :
    w' = w ∧ ∃ target, b = setStatus a target ∧ Moves .confirmed target ∧
      (a.allocations = [] → a.schedules = [] → target = .confirmed) := by
  have hworld : w' = w := readOnly_of_ok h
  refine ⟨hworld, ?_⟩
  unfold lockStatus at h
  simp only [bind_eq_ok, moveTo_eq_ok] at h
  obtain ⟨_, _, ⟨-, rfl, rfl⟩, _, _, hplanned, hbilled⟩ := h
  obtain ⟨middle, rfl, hfirst, hunplanned⟩ := moveIf_eq_ok hplanned
  obtain ⟨last, rfl, hlast, hunbilled⟩ := moveIf_eq_ok hbilled
  refine ⟨last, rfl, hfirst.trans hlast, fun hallocations hschedules => ?_⟩
  rw [hunbilled (by simp [setStatus, hschedules])]
  exact hunplanned (by simp [setStatus, hallocations])

theorem withSaleOrder_eq (env : Env) (a : QuoteAggregate) :
    ∃ saleOrder : Option ℕ,
      withSaleOrder env a = { a with quote := { a.quote with odooSaleOrderId := saleOrder } } := by
  unfold withSaleOrder
  split
  · exact ⟨_, rfl⟩
  · exact ⟨a.quote.odooSaleOrderId, rfl⟩

theorem confirm_change {quoteId : Id} {actor : Actor} {version : ℕ}
    (h : (confirm env quoteId actor version).edit a w = .ok (some b) w') :
    Change env w w' a b (.confirm quoteId actor version) := by
  simp only [confirm, bind_eq_ok, throwIf_eq_ok, assertExpectedVersion_eq_ok] at h
  obtain ⟨_, _, ⟨-, rfl⟩, _, _, ⟨-, rfl⟩, h⟩ := h
  split at h
  · cases (pure_eq_ok.mp h).1
  · rename_i hunlocked
    simp only [bind_eq_ok, throwIf_eq_ok, refreshAssessment_eq_ok, pure_eq_ok,
      Option.some.injEq] at h
    obtain ⟨_, _, ⟨hstatus, rfl⟩, _, _, ⟨happroved, rfl⟩, _, _, ⟨pairs, hpairs, rfl, rfl⟩, _, _,
      ⟨hdecision, rfl⟩, _, w₁, hconsumed, _, _, hlock, rfl, rfl⟩ := h
    obtain ⟨rfl, target, rfl, hmoves, hplanned⟩ := lockStatus_eq_ok hlock
    have hunlocked : a.quote.financeLockedAt = none := by simpa using hunlocked
    obtain ⟨saleOrder, hsale⟩ := withSaleOrder_eq env _
    rw [hsale]
    exact .locked saleOrder (not_not.mp hstatus) hunlocked (not_not.mp happroved) hpairs hdecision
      hconsumed hmoves hplanned rfl

theorem complete_change {quoteId : Id} {version : ℕ}
    (h : (complete env quoteId version).edit a w = .ok (some b) w') :
    Change env w w' a b (.complete quoteId version) := by
  simp only [complete, Mutation.saving, map_eq_ok, bind_eq_ok, throwIf_eq_ok,
    assertExpectedVersion_eq_ok, lift_eq_ok, moveTo_eq_ok, pure_eq_ok, Option.some.injEq] at h
  obtain ⟨_, ⟨_, _, ⟨-, rfl⟩, _, _, ⟨hopen, rfl⟩, _, _, ⟨-, rfl⟩, billing, _, hbilling, _, _,
    ⟨-, rfl, rfl⟩, rfl, rfl⟩, rfl⟩ := h
  have hsource : isWon a.quote.status = true := by
    revert hopen
    cases a.quote.status <;> decide
  obtain ⟨status, rfl, -⟩ := moveIf_eq_ok hbilling
  refine .completed hsource ?_
  split <;> rfl

/-- What every saved edit did. -/
theorem change_of_edit (op : QuoteEdit) (h : (op.mutation env).edit a w = .ok (some b) w') :
    Change env w w' a b op := by
  cases op with
  | addLine => exact addLine_change h
  | updateLine => exact updateLine_change h
  | removeLine => exact removeLine_change h
  | applyRecommendation => exact applyRecommendation_change h
  | submit => exact submit_change h
  | decide => exact decideApproval_change h
  | startNegotiation => exact startNegotiation_change h
  | createNegotiationRequest => exact createNegotiationRequest_change h
  | respondToNegotiation => exact respondToNegotiation_change h
  | sendNegotiationToManager => exact sendNegotiationToManager_change h
  | reviseAsManager => exact reviseAsManager_change h
  | returnRevisedQuote => exact returnRevisedQuote_change h
  | agreeToFinal => exact agreeToFinal_change h
  | finalizeQuotation => exact finalizeQuotation_change h
  | createPortalNegotiation => exact createPortalNegotiation_change h
  | applyPortalChange => exact applyPortalChange_change h
  | applyPortalDecision => exact applyPortalDecision_change h
  | planFulfillment => exact planFulfillment_change h
  | generateBilling => exact generateBilling_change h
  | cancelBilling => exact cancelBilling_change h
  | confirm => exact confirm_change h
  | complete => exact complete_change h
  | voidQuote => exact voidQuote_change h

end Edits

/-! ## What every change keeps -/

section Kept

variable {env : Env} {w w' : World} {a b : QuoteAggregate} {op : QuoteEdit}

/-- What names a quote for good: its id, its customer and its portal token. -/
def QuoteAggregate.identity (a : QuoteAggregate) : Id × Id × Id :=
  (a.id, a.quote.customerId, a.quote.portalToken)

/-- Every change counts the version up by one and keeps whose quote it is. -/
theorem Change.frame (h : Change env w w' a b op) :
    b.identity = a.identity ∧ b.customer = a.customer ∧ b.quote.version = a.quote.version + 1 := by
  cases h <;>
  · have hbody := ‹b.body = _›
    have hidentity := eq_of_body QuoteAggregate.identity hbody (fun _ => rfl)
    have hcustomer := eq_of_body (·.customer) hbody (fun _ => rfl)
    have hversion := eq_of_body (fun c => c.quote.version) hbody (fun _ => rfl)
    exact ⟨hidentity, hcustomer, hversion⟩

theorem Change.identity (h : Change env w w' a b op) : b.identity = a.identity := h.frame.1

theorem Change.customer (h : Change env w w' a b op) : b.customer = a.customer := h.frame.2.1

theorem Change.id (h : Change env w w' a b op) : b.id = a.id := congrArg (·.1) h.identity

/-- Only an unlocked quote is locked. -/
theorem Change.unlocked_of_confirm {quoteId : Id} {actor : Actor} {version : ℕ}
    (h : Change env w w' a b (.confirm quoteId actor version)) : a.quote.financeLockedAt = none := by
  cases h with
  | locked saleOrder happroved hunlocked => exact hunlocked
  | commercial hop => cases hop
  | proposed active hop => cases hop
  | moved active frozenAt frozenBy hop => cases hop
  | answered decision decidedAt comment decidedVersion active hop => cases hop

theorem Change.version (h : Change env w w' a b op) : b.quote.version = a.quote.version + 1 := h.frame.2.2

/-- Only these edits can change the lines of a quote. -/
theorem Change.lines (h : Change env w w' a b op) :
    b.lines = a.lines ∨ ∃ lines, b.lines = lines ∧ Relines env w w' a op lines ∧
      (canMutateCommercials a.quote.status = true ∧ a.quote.financeLockedAt = none ∧
          op.isCommercial = true ∨
        (a.quote.status = .draft ∨ a.quote.status = .customerNegotiation) ∧ op.isProposal = true ∨
        ∃ quoteId negotiationId note actor,
          op = .respondToNegotiation quoteId negotiationId .accepted note a.quote.version actor) := by
  cases h with
  | commercial hop hopen hunlocked hlines hbody =>
      exact .inr ⟨_, eq_of_body (·.lines) hbody (fun _ => rfl), hlines, .inl ⟨hopen, hunlocked, hop⟩⟩
  | proposed active hop hstatus hlines hbody =>
      exact .inr ⟨_, eq_of_body (·.lines) hbody (fun _ => rfl), hlines, .inr (.inl ⟨hstatus, hop⟩)⟩
  | responded active hversion hlines hbody =>
      rcases hlines with rfl | hlines
      · have hlines := eq_of_body (fun c => c.lines) hbody (fun _ => rfl)
        exact .inl hlines
      · refine .inr ⟨_, eq_of_body (·.lines) hbody (fun _ => rfl), hlines, .inr (.inr ?_)⟩
        subst hversion
        cases hlines
        exact ⟨_, _, _, _, rfl⟩
  | _ =>
      have hbody := ‹b.body = _›
      have hlines := eq_of_body (fun c => c.lines) hbody (fun _ => rfl)
      exact .inl hlines

end Kept

end DealFlow360
