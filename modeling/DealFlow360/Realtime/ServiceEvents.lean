import DealFlow360.Anomalies
import DealFlow360.Ownership
import DealFlow360.Realtime.RealtimeHub

/-!
# What the service publishes

The events of a request, read off the operations: `publishes` takes the state
before a request and lists what `publish` is called with, in the order of the
calls. A save publishes the anomalies it stores and then the quote; an edit
goes on with what it adds to that, and an email that was attempted with its
status; a deletion, a catalog edit and a disposition have one event each. A
request that throws has published what came before the throw.

`publishAdapter` turns an event into the realtime event of the module.
Whoever's quote an event is about, no key of its payload hides that it comes
from the service (`publishes_plain`), which is what decides who may be sent it.

`concerns` says which customer a request is about: the customer of the stored
quote it names by id, by token or by anomaly, and for a new quote the customer
it is made for.

The lists are exact: for each operation the branches under which the source
publishes are the branches of the definition, including those of a save that
fails after it has published. Ids and times of events are left out, as the hub
does not read them.
-/

namespace DealFlow360.Realtime

open Program

/-! ## Events -/

/-- What the service hands to `publish`. -/
structure ServiceEvent where
  type : String
  quoteId : Option String := none
  payload : Payload := []
  deriving DecidableEq, Repr

/-- `{ ...base, ...extra }`. -/
def spread (base extra : Payload) : Payload :=
  extra.foldl (fun payload entry => Table.upsert Prod.fst entry payload) base

/-- The realtime event of the adapter. Where the event bus throws, there is none. -/
def publishAdapter (emits : Bool) (event : ServiceEvent) : Option RealtimeEvent :=
  if emits then
    some
      { channel := .dashboard
        type := .dashboardUpdated
        payload :=
          spread
            ([("kind", .string "dealflow"), ("source", .string "dealflow"), ("event", .string event.type)] ++
              (event.quoteId.map fun id => ("quoteId", JsonScalar.string id)).toList)
            event.payload }
  else none

/-- An id as it is written. -/
def idScalar (id : Id) : JsonScalar := .string (toString id)

def quoteEvent (type : String) (quoteId : Id) (payload : Payload) : ServiceEvent :=
  { type, quoteId := some (toString quoteId), payload }

def catalogUpdated (payload : Payload) : ServiceEvent := { type := "catalog.updated", payload }

/-- What a program answers where it returns. -/
def answer? {σ α : Type} (program : EStateM DomainError σ α) (s : σ) : Option α :=
  match program s with
  | .ok a _ => some a
  | .error _ _ => none

/-! ## Saves -/

def anomalyCreated (saved : QuoteAggregate) (anomaly : DealflowAnomaly) : ServiceEvent :=
  quoteEvent "anomaly.created" saved.quote.id
    [("anomalyId", idScalar anomaly.id), ("type", .string anomaly.type)]

def quoteUpdated (saved : QuoteAggregate) : ServiceEvent :=
  quoteEvent "quote.updated" saved.quote.id
    [("status", .string saved.quote.status.text), ("version", .number saved.quote.version)]

/-- What `saveAssessed` publishes: the anomalies it stores, whose ids are new, and then the quote. -/
def saveEvents (before after : WatchedWorld) (saved : QuoteAggregate) : List ServiceEvent :=
  ((after.anomalies.filter fun anomaly => before.nextAnomaly ≤ anomaly.id).map (anomalyCreated saved)) ++
    [quoteUpdated saved]

/-! ## Emails -/

def emailStatusText : QuoteEmailStatus → String
  | .pending => "pending"
  | .notConfigured => "not_configured"
  | .sent => "sent"
  | .failed => "failed"

/-- What `dispatchCustomerQuoteEmail` publishes: nothing where the email is settled or has nobody to go to. -/
def emailEvents (env : Env) (aggregate : QuoteAggregate) (eventType : QuoteEmailEvent) (w : World) :
    List ServiceEvent :=
  let key := customerQuoteEmailKey aggregate.quote.id eventType (customerQuoteEmailStamp aggregate eventType)
  let settled := (w.store.findQuoteEmailByKey key).any fun record =>
    record.status = .sent || record.status = .notConfigured
  if settled || trim aggregate.customer.email = "" then []
  else
    ((answer? (dispatchCustomerQuoteEmail env aggregate eventType) w).map fun record =>
      quoteEvent "quote.updated" aggregate.quote.id
        [("customerEmail", .string (emailStatusText record.status)), ("eventType", .string eventType.text)]).toList

/-! ## Edits -/

def negotiationUpdated (quoteId : Id) (payload : Payload) : ServiceEvent :=
  quoteEvent "negotiation.updated" quoteId payload

def responseText : NegotiationResponse → String
  | .accepted => "accepted"
  | .rejected => "rejected"
  | .inReview => "in_review"

def decisionText : CustomerDecision → String
  | .none => "none"
  | .accepted => "accepted"
  | .declined => "declined"

/-- The open request a quote was just given. -/
def requestOpened (saved : QuoteAggregate) : ServiceEvent :=
  negotiationUpdated saved.quote.id
    ((saved.quote.activeNegotiationId.map fun id => ("negotiationId", idScalar id)).toList ++
      [("status", .string "open")])

/-- What an edit publishes after its save, in the world the save left. -/
def editEvents (env : Env) (saved : QuoteAggregate) (w : World) : QuoteEdit → List ServiceEvent
  | .submit _ _ => if saved.quote.status = .approved then emailEvents env saved .prelimInvoice w else []
  | .decide _ approvalId decision _ _ =>
      let decided := saved.approvals.find? fun item => item.id = approvalId
      let alreadyPrelim := (w.store.listQuoteEmails saved.quote.id).any fun item => item.eventType = .prelimInvoice
      if decision = .approved ∧ (decided.any (fun item => item.roleKey = .manager) ∨
          (saved.quote.status = .approved ∧ ¬ alreadyPrelim)) then emailEvents env saved .prelimInvoice w
      else []
  | .createNegotiationRequest _ _ _ | .createPortalNegotiation _ _ => [requestOpened saved]
  | .respondToNegotiation quoteId negotiationId decision _ _ _ =>
      [negotiationUpdated quoteId
        [("negotiationId", idScalar negotiationId), ("status", .string (responseText decision))]]
  | .sendNegotiationToManager quoteId _ _ =>
      [negotiationUpdated quoteId [("status", .string "sent_to_manager")]]
  | .reviseAsManager quoteId _ _ _ => [negotiationUpdated quoteId [("status", .string "manager_revised")]]
  | .returnRevisedQuote quoteId _ _ _ =>
      negotiationUpdated quoteId [("status", .string "returned_to_customer")] ::
        emailEvents env saved .prelimInvoice w
  | .agreeToFinal quoteId _ =>
      [negotiationUpdated quoteId [("status", .string "agreed"), ("decision", .string "accepted")]]
  | .finalizeQuotation quoteId _ _ =>
      quoteEvent "quote.updated" quoteId [("status", .string "finalized")] ::
        emailEvents env saved .prelimInvoice w
  | .applyPortalChange _ _ _ =>
      [negotiationUpdated saved.quote.id [("status", .string saved.quote.status.text)]]
  | .applyPortalDecision _ _ action _ =>
      [negotiationUpdated saved.quote.id [("decision", .string (decisionText action))]]
  | .confirm _ _ _ => emailEvents env saved .finalInvoice w
  | _ => []

/-- What an edit publishes where it answers without a save. -/
def idleEvents (env : Env) (loaded : QuoteAggregate) (w : World) : QuoteEdit → List ServiceEvent
  | .confirm _ _ _ => emailEvents env loaded .finalInvoice w
  | _ => []

/-- What a save publishes, and what comes after it. -/
def savingEvents (env : Env) (aggregate : QuoteAggregate) (rest : QuoteAggregate → World → List ServiceEvent)
    (s : WatchedWorld) : List ServiceEvent :=
  match saveWatched env aggregate s with
  | .ok saved s' => saveEvents s s' saved ++ rest saved s'.world
  | .error _ _ => []

def quoteEditEvents (env : Env) (op : QuoteEdit) (s : WatchedWorld) : List ServiceEvent :=
  match watch (op.mutation env).load s with
  | .error _ _ => []
  | .ok loaded s =>
      match watch ((op.mutation env).edit loaded) s with
      | .error _ _ => []
      | .ok none s => idleEvents env loaded s.world op
      | .ok (some aggregate) s => savingEvents env aggregate (fun saved w => editEvents env saved w op) s

/-! ## Catalog edits -/

/-- What a catalog edit publishes once it has returned. -/
def catalogEvents (env : Env) (w : World) : CatalogEdit → List ServiceEvent
  | .upsertProduct input actor =>
      ((answer? (DealFlow360.upsertProduct env input actor) w).map fun saved =>
        catalogUpdated
          [("productId", idScalar saved.id), ("sku", .string saved.sku),
            ("created", .boolean (input.id.bind w.store.getProduct).isNone)]).toList
  | .deleteProduct id _ =>
      ((w.store.getProduct id).map fun current =>
        catalogUpdated
          [("productId", idScalar id), ("sku", .string current.sku), ("deleted", .boolean true)]).toList
  | .upsertCustomer input actor =>
      ((answer? (editCustomer env input actor) w).map fun saved =>
        catalogUpdated [("customerId", idScalar saved.id)]).toList
  | .deleteCustomer id _ => [catalogUpdated [("customerId", idScalar id), ("deleted", .boolean true)]]
  | .deletePolicy id _ => [catalogUpdated [("policyId", idScalar id), ("deleted", .boolean true)]]
  | .deleteChain id _ => [catalogUpdated [("chainId", idScalar id), ("deleted", .boolean true)]]
  | .upsertWarehouse id _ _ _ => [catalogUpdated [("warehouseId", idScalar (id.getD w.nextUuid))]]
  | .deleteWarehouse id _ => [catalogUpdated [("warehouseId", idScalar id), ("deleted", .boolean true)]]
  | _ => []

/-! ## Requests -/

def createEvents (env : Env) (customerId : Id) (ownerId : Option String) (inputs : List LineInput)
    (actor : Actor) (s : WatchedWorld) : List ServiceEvent :=
  match watch (draftQuote env customerId ownerId inputs actor) s with
  | .ok draft s => savingEvents env draft (fun _ _ => []) s
  | .error _ _ => []

/-- A deletion names the quote as it was. -/
def deleteEvents (quoteId : Id) (actor : Actor) (expectedVersion : ℕ) (w : World) : List ServiceEvent :=
  match w.store.storedQuote quoteId, answer? (deleteQuote quoteId actor expectedVersion) w with
  | some q, some _ => [quoteEvent "quote.deleted" quoteId [("number", .string q.quote.number)]]
  | _, _ => []

/-- What an operation publishes. -/
def operationEvents (env : Env) (s : WatchedWorld) : Operation → List ServiceEvent
  | .edit op => quoteEditEvents env op s
  | .createQuote customerId ownerId lines actor => createEvents env customerId ownerId lines actor s
  | .deleteQuote quoteId actor version => deleteEvents quoteId actor version s.world
  | .catalog op => if (answer? (op.program env) s.world).isSome then catalogEvents env s.world op else []
  | .assess _ | .view _ => []

def anomalyStatusText : AnomalyStatus → String
  | .open => "open"
  | .acknowledged => "acknowledged"
  | .resolved => "resolved"
  | .dismissed => "dismissed"

/-- What a request publishes, in order. -/
def publishes (options : Options) (s : WatchedWorld) : WatchedRequest → List ServiceEvent
  | .operation request => operationEvents (request.env options) s request.operation
  | .disposeAnomaly id input _ _ =>
      ((Table.lookup (fun anomaly : DealflowAnomaly => anomaly.id) id s.anomalies).map fun existing =>
        { type := "anomaly.updated"
          quoteId := existing.quoteId.map toString
          payload := [("anomalyId", idScalar id), ("status", .string (anomalyStatusText input.status))] }).toList

/-! ## Payloads -/

/-- No key of the payload stands for the kind the adapter gives the event. -/
def ServiceEvent.Plain (event : ServiceEvent) : Prop := "kind" ∉ event.payload.map Prod.fst

section Plain

variable {env : Env}

theorem forall_mem_toList_map {α β : Type} {P : β → Prop} {f : α → β} (h : ∀ a, P (f a)) (found : Option α) :
    ∀ b ∈ (found.map f).toList, P b := by
  intro b hb
  obtain ⟨a, -, rfl⟩ := Option.map_eq_some_iff.mp (Option.mem_toList.mp hb)
  exact h a

theorem saveEvents_plain (before after : WatchedWorld) (saved : QuoteAggregate) :
    ∀ event ∈ saveEvents before after saved, event.Plain := by
  intro event h
  rcases List.mem_append.mp h with h | h
  · obtain ⟨anomaly, -, rfl⟩ := List.mem_map.mp h
    simp [anomalyCreated, quoteEvent, ServiceEvent.Plain]
  · obtain rfl := List.mem_singleton.mp h
    simp [quoteUpdated, quoteEvent, ServiceEvent.Plain]

theorem emailEvents_plain (aggregate : QuoteAggregate) (eventType : QuoteEmailEvent) (w : World) :
    ∀ event ∈ emailEvents env aggregate eventType w, event.Plain := by
  unfold emailEvents
  dsimp only
  split_ifs
  · exact List.forall_mem_nil _
  · exact forall_mem_toList_map (fun record => by simp [quoteEvent, ServiceEvent.Plain]) _

theorem requestOpened_plain (saved : QuoteAggregate) : (requestOpened saved).Plain := by
  unfold requestOpened negotiationUpdated quoteEvent ServiceEvent.Plain
  cases saved.quote.activeNegotiationId <;> simp

theorem editEvents_plain (saved : QuoteAggregate) (w : World) (op : QuoteEdit) :
    ∀ event ∈ editEvents env saved w op, event.Plain := by
  have hone {event : ServiceEvent} (h : event.Plain) : ∀ e ∈ [event], e.Plain := by
    intro e he
    obtain rfl := List.mem_singleton.mp he
    exact h
  have hcons {event : ServiceEvent} {rest : List ServiceEvent} (h : event.Plain) (hrest : ∀ e ∈ rest, e.Plain) :
      ∀ e ∈ event :: rest, e.Plain := List.forall_mem_cons.mpr ⟨h, hrest⟩
  cases op with
  | submit quoteId actor =>
      unfold editEvents
      split_ifs
      · exact emailEvents_plain saved .prelimInvoice w
      · exact List.forall_mem_nil _
  | decide quoteId approvalId decision reason actor =>
      unfold editEvents
      dsimp only
      split_ifs
      · exact emailEvents_plain saved .prelimInvoice w
      · exact List.forall_mem_nil _
  | createNegotiationRequest quoteId input actor => exact hone (requestOpened_plain saved)
  | createPortalNegotiation token input => exact hone (requestOpened_plain saved)
  | returnRevisedQuote quoteId negotiationId actor version =>
      refine hcons ?_ (emailEvents_plain saved .prelimInvoice w)
      simp [negotiationUpdated, quoteEvent, ServiceEvent.Plain]
  | finalizeQuotation quoteId actor version =>
      refine hcons ?_ (emailEvents_plain saved .prelimInvoice w)
      simp [quoteEvent, ServiceEvent.Plain]
  | confirm quoteId actor version => exact emailEvents_plain saved .finalInvoice w
  | _ => simp [editEvents, negotiationUpdated, quoteEvent, ServiceEvent.Plain]

theorem idleEvents_plain (loaded : QuoteAggregate) (w : World) (op : QuoteEdit) :
    ∀ event ∈ idleEvents env loaded w op, event.Plain := by
  cases op with
  | confirm quoteId actor version => exact emailEvents_plain loaded .finalInvoice w
  | _ => exact List.forall_mem_nil _

theorem savingEvents_plain {rest : QuoteAggregate → World → List ServiceEvent}
    (hrest : ∀ saved w, ∀ event ∈ rest saved w, event.Plain) (aggregate : QuoteAggregate) (s : WatchedWorld) :
    ∀ event ∈ savingEvents env aggregate rest s, event.Plain := by
  unfold savingEvents
  cases saveWatched env aggregate s with
  | ok saved s' =>
      intro event h
      rcases List.mem_append.mp h with h | h
      · exact saveEvents_plain s s' saved event h
      · exact hrest saved s'.world event h
  | error e s' => exact List.forall_mem_nil _

theorem quoteEditEvents_plain (op : QuoteEdit) (s : WatchedWorld) :
    ∀ event ∈ quoteEditEvents env op s, event.Plain := by
  unfold quoteEditEvents
  cases watch (op.mutation env).load s with
  | error e s' => exact List.forall_mem_nil _
  | ok loaded s' =>
      dsimp only
      cases watch ((op.mutation env).edit loaded) s' with
      | error e s'' => exact List.forall_mem_nil _
      | ok edited s'' =>
          cases edited with
          | none => exact idleEvents_plain loaded s''.world op
          | some aggregate => exact savingEvents_plain (fun saved w => editEvents_plain saved w op) aggregate s''

theorem catalogEvents_plain (w : World) (op : CatalogEdit) : ∀ event ∈ catalogEvents env w op, event.Plain := by
  cases op with
  | upsertProduct input actor =>
      exact forall_mem_toList_map (fun saved => by simp [catalogUpdated, ServiceEvent.Plain]) _
  | deleteProduct id actor =>
      exact forall_mem_toList_map (fun current => by simp [catalogUpdated, ServiceEvent.Plain]) _
  | upsertCustomer input actor =>
      exact forall_mem_toList_map (fun saved => by simp [catalogUpdated, ServiceEvent.Plain]) _
  | _ => simp [catalogEvents, catalogUpdated, ServiceEvent.Plain]

theorem createEvents_plain (customerId : Id) (ownerId : Option String) (inputs : List LineInput) (actor : Actor)
    (s : WatchedWorld) : ∀ event ∈ createEvents env customerId ownerId inputs actor s, event.Plain := by
  unfold createEvents
  cases watch (draftQuote env customerId ownerId inputs actor) s with
  | ok draft s' => exact savingEvents_plain (fun _ _ => List.forall_mem_nil _) draft s'
  | error e s' => exact List.forall_mem_nil _

theorem deleteEvents_plain (quoteId : Id) (actor : Actor) (version : ℕ) (w : World) :
    ∀ event ∈ deleteEvents quoteId actor version w, event.Plain := by
  unfold deleteEvents
  cases w.store.storedQuote quoteId with
  | none => exact List.forall_mem_nil _
  | some q =>
      cases answer? (deleteQuote quoteId actor version) w with
      | none => exact List.forall_mem_nil _
      | some _ => simp [quoteEvent, ServiceEvent.Plain]

theorem operationEvents_plain (s : WatchedWorld) (operation : Operation) :
    ∀ event ∈ operationEvents env s operation, event.Plain := by
  cases operation with
  | edit op => exact quoteEditEvents_plain op s
  | createQuote customerId ownerId lines actor => exact createEvents_plain customerId ownerId lines actor s
  | deleteQuote quoteId actor version => exact deleteEvents_plain quoteId actor version s.world
  | assess quoteId => exact List.forall_mem_nil _
  | catalog op =>
      unfold operationEvents
      dsimp only
      split_ifs
      · exact catalogEvents_plain s.world op
      · exact List.forall_mem_nil _
  | view op => exact List.forall_mem_nil _

/-- Nothing a request publishes hides that it comes from the service. -/
theorem publishes_plain (options : Options) (s : WatchedWorld) (request : WatchedRequest) :
    ∀ event ∈ publishes options s request, event.Plain := by
  cases request with
  | disposeAnomaly id input actorId now =>
      exact forall_mem_toList_map (fun existing => by simp [ServiceEvent.Plain]) _
  | operation request => exact operationEvents_plain s request.operation

end Plain

/-! ## Whose quote a request is about -/

/-- The stored quote an edit is of. -/
def editTarget (store : Store) : QuoteEdit → Option QuoteAggregate
  | .createPortalNegotiation token _ | .applyPortalChange token _ _ | .applyPortalDecision token _ _ _ =>
      store.storedByToken token
  | .addLine quoteId _ _ _ | .updateLine quoteId _ _ _ _ | .removeLine quoteId _ _ _
  | .applyRecommendation quoteId _ _ _ | .submit quoteId _ | .decide quoteId _ _ _ _
  | .startNegotiation quoteId _ | .createNegotiationRequest quoteId _ _
  | .respondToNegotiation quoteId _ _ _ _ _ | .sendNegotiationToManager quoteId _ _
  | .reviseAsManager quoteId _ _ _ | .returnRevisedQuote quoteId _ _ _ | .agreeToFinal quoteId _
  | .finalizeQuotation quoteId _ _ | .planFulfillment quoteId _ _ | .generateBilling quoteId _
  | .cancelBilling quoteId _ _ | .confirm quoteId _ _ | .complete quoteId _ | .voidQuote quoteId _ _ =>
      store.storedQuote quoteId

/-- The customer of the quote an operation is on. -/
def operationCustomer (store : Store) : Operation → Option Id
  | .edit op => (editTarget store op).map (·.quote.customerId)
  | .createQuote customerId _ _ _ => some customerId
  | .deleteQuote quoteId _ _ | .assess quoteId | .view (.getQuote quoteId) | .view (.recommendations quoteId) =>
      (store.storedQuote quoteId).map (·.quote.customerId)
  | .view (.getQuoteByToken token) => (store.storedByToken token).map (·.quote.customerId)
  | .catalog _ | .view .listQuotes => none

/-- The customer of the quote a request is about. -/
def concerns (s : WatchedWorld) : WatchedRequest → Option Id
  | .operation request => operationCustomer s.world.store request.operation
  | .disposeAnomaly id _ _ _ => do
      let anomaly ← Table.lookup (fun anomaly : DealflowAnomaly => anomaly.id) id s.anomalies
      let quoteId ← anomaly.quoteId
      let q ← s.world.store.storedQuote quoteId
      return q.quote.customerId

end DealFlow360.Realtime
