import DealFlow360.Operation

/-!
# What the parts of a request may write

An edit prepares its copy of the quote: it draws ids and quote numbers, may
write negotiations, and two operations also write stock. Answering moves a
customer's tier and records emails. Neither touches the quotes; they are
written by the save alone.

Each helper of the service has one lemma that says what it may write, found by
instance resolution over the structure of its program; `keeps_edit` and
`keeps_quiet` assemble them for the edits, `keeps_catalog_of` for the catalog.
Answers do not fail once the quote is found, which is why a served request has
always answered.
-/

namespace DealFlow360

open Program

-- the instances below are found statement by statement, one node each

/-- What an edit may write. -/
structure EditFrame (w w' : World) : Prop where
  store : w'.store =
    { w.store with
      stock := w'.store.stock
      negotiations := w'.store.negotiations
      quoteSeq := w'.store.quoteSeq }
  nextUuid : w.nextUuid ≤ w'.nextUuid
  outbox : w'.outbox = w.outbox

/-- What an edit may write that leaves the stock alone. -/
structure QuietFrame (w w' : World) : Prop where
  store : w'.store =
    { w.store with negotiations := w'.store.negotiations, quoteSeq := w'.store.quoteSeq }
  nextUuid : w.nextUuid ≤ w'.nextUuid
  outbox : w'.outbox = w.outbox
  consumed : w'.consumed = w.consumed

/-- What answering may write. Customers may be moved to another tier, never away. -/
structure TailFrame (w w' : World) : Prop where
  store : w'.store =
    { w.store with customers := w'.store.customers, emails := w'.store.emails }
  customers : ∀ id, (w.store.getCustomer id).isSome → (w'.store.getCustomer id).isSome
  nextUuid : w.nextUuid ≤ w'.nextUuid
  consumed : w'.consumed = w.consumed

theorem QuietFrame.edit {w w' : World} (h : QuietFrame w w') : EditFrame w w' where
  store := by rw [h.store]
  nextUuid := h.nextUuid
  outbox := h.outbox

instance : Std.Refl EditFrame := ⟨fun _ => ⟨rfl, le_rfl, rfl⟩⟩
instance : Std.Refl QuietFrame := ⟨fun _ => ⟨rfl, le_rfl, rfl, rfl⟩⟩
instance : Std.Refl TailFrame := ⟨fun _ => ⟨rfl, fun _ h => h, le_rfl, rfl⟩⟩

instance : IsTrans World EditFrame where
  trans _ _ _ h₁ h₂ :=
    { store := by rw [h₂.store, h₁.store]
      nextUuid := h₁.nextUuid.trans h₂.nextUuid
      outbox := h₂.outbox.trans h₁.outbox }

instance : IsTrans World QuietFrame where
  trans _ _ _ h₁ h₂ :=
    { store := by rw [h₂.store, h₁.store]
      nextUuid := h₁.nextUuid.trans h₂.nextUuid
      outbox := h₂.outbox.trans h₁.outbox
      consumed := h₂.consumed.trans h₁.consumed }

instance : IsTrans World TailFrame where
  trans _ _ _ h₁ h₂ :=
    { store := by rw [h₂.store, h₁.store]
      customers := fun id h => h₂.customers id (h₁.customers id h)
      nextUuid := h₁.nextUuid.trans h₂.nextUuid
      consumed := h₂.consumed.trans h₁.consumed }

/-- What a request may write that leaves the quotes alone. -/
structure QuotesKept (w w' : World) : Prop where
  quotes : w'.store.quotes = w.store.quotes
  nextUuid : w.nextUuid ≤ w'.nextUuid
  consumed : w'.consumed = w.consumed

theorem QuietFrame.quotesKept {w w' : World} (h : QuietFrame w w') : QuotesKept w w' where
  quotes := by rw [h.store]
  nextUuid := h.nextUuid
  consumed := h.consumed

theorem TailFrame.quotesKept {w w' : World} (h : TailFrame w w') : QuotesKept w w' where
  quotes := by rw [h.store]
  nextUuid := h.nextUuid
  consumed := h.consumed

instance : Std.Refl QuotesKept := ⟨fun _ => ⟨rfl, le_rfl, rfl⟩⟩

instance : IsTrans World QuotesKept where
  trans _ _ _ h₁ h₂ :=
    { quotes := h₂.quotes.trans h₁.quotes
      nextUuid := h₁.nextUuid.trans h₂.nextUuid
      consumed := h₂.consumed.trans h₁.consumed }

/-! ## The helpers of the service -/

section ReadOnly

variable {R : World → World → Prop} [Std.Refl R] [IsTrans World R]

instance (find : Store → Option QuoteAggregate) : Keeps R (getStoredQuote find) := by
  unfold getStoredQuote
  refine @Keeps.bind _ _ _ _ _ _ _ _ _ fun store => ?_
  cases find store <;> infer_instance

instance (id : Id) : Keeps R (load id) := by
  unfold load
  infer_instance

instance (token : Id) : Keeps R (loadByToken token) := by
  unfold loadByToken
  infer_instance

instance (aggregate : QuoteAggregate) (version : ℕ) :
    Keeps R (assertExpectedVersion aggregate version) := by
  unfold assertExpectedVersion
  infer_instance

instance (actor : Actor) : Keeps R (assertManagerActor actor) := by
  unfold assertManagerActor
  infer_instance

instance (aggregate : QuoteAggregate) (status : QuoteStatus) : Keeps R (moveTo aggregate status) := by
  unfold moveTo
  infer_instance

instance (options : Options) (aggregate : QuoteAggregate) :
    Keeps R (refreshAssessment options aggregate) := by
  unfold refreshAssessment
  infer_instance

set_option synthInstance.maxSize 2000 in
instance (options : Options) (aggregate : QuoteAggregate) (actor : Actor) (discounts : List Num)
    (overrides : List PriceOverride) :
    Keeps R (assertCommercialWrite options aggregate actor discounts overrides) := by
  unfold assertCommercialWrite
  dsimp only
  infer_instance

instance (aggregate : QuoteAggregate) (version : Option ℕ) :
    Keeps R (assertVersionIfSent aggregate version) := by
  cases version <;> unfold assertVersionIfSent <;> infer_instance

instance (env : Env) (aggregate : QuoteAggregate) (actor : Actor) (lines : List QuoteLine)
    (line : NegotiationRequestedLine) :
    Keeps R (acceptRequested env aggregate actor lines line) := by
  unfold acceptRequested
  dsimp only
  refine @Keeps.ite _ _ _ _ _ _ _ _ _ ?_
  split <;> infer_instance

instance (aggregate : QuoteAggregate) : Keeps R (lockStatus aggregate) := by
  unfold lockStatus
  infer_instance

end ReadOnly

/-! ## Edits -/

instance : Keeps QuietFrame randomUUID := by
  unfold randomUUID
  exact @Keeps.bind _ _ _ _ _ _ _ _ _ fun _ =>
    @Keeps.bind _ _ _ _ _ _ _ _ (.write fun _ => ⟨rfl, Nat.le_succ _, rfl, rfl⟩) _

instance (count : ℕ) : Keeps QuietFrame (randomUUIDs count) := by
  unfold randomUUIDs
  exact @Keeps.bind _ _ _ _ _ _ _ _ _ fun _ =>
    @Keeps.bind _ _ _ _ _ _ _ _ (.write fun _ => ⟨rfl, Nat.le_add_right _ _, rfl, rfl⟩) _

instance (item : NegotiationRequest) : Keeps QuietFrame (updateStore (Store.saveNegotiation item)) :=
  .write fun _ => ⟨rfl, le_rfl, rfl, rfl⟩

instance (env : Env) (request : NegotiationRequest) (status : NegotiationStatus) :
    Keeps QuietFrame (markNegotiation env request status) := by
  unfold markNegotiation
  infer_instance

instance (env : Env) (request : Option NegotiationRequest) (status : NegotiationStatus) :
    Keeps QuietFrame (markIfFound env request status) := by
  cases request <;> unfold markIfFound <;> infer_instance

instance (env : Env) (aggregate : QuoteAggregate) (request : Option NegotiationRequest) :
    Keeps QuietFrame (agreeNegotiation env aggregate request) := by
  cases request <;> unfold agreeNegotiation <;> infer_instance

instance (env : Env) (aggregate : QuoteAggregate) (negotiationId : Option Id) :
    Keeps QuietFrame (handOver env aggregate negotiationId) := by
  cases negotiationId <;> unfold handOver <;> infer_instance

instance (quoteId : Id) (input : LineInput) : Keeps QuietFrame (toLine quoteId input) := by
  unfold toLine
  infer_instance

instance (input : LineUpdate) (quoteId : Id) (rulePrice : Num) (line : QuoteLine) :
    Keeps QuietFrame (input.reprice quoteId rulePrice line) := by
  unfold LineUpdate.reprice
  split
  · infer_instance
  · split <;> infer_instance

instance (env : Env) (aggregate : QuoteAggregate) (actor : Actor) (materialChange : Bool) :
    Keeps QuietFrame (appendRevision env aggregate actor materialChange) := by
  unfold appendRevision
  infer_instance

instance (env : Env) (aggregate : QuoteAggregate) (actor : Actor) (material : Bool) :
    Keeps QuietFrame (finishMutation env aggregate actor material) := by
  unfold finishMutation
  dsimp only
  infer_instance

instance (options : Options) (aggregate : QuoteAggregate) (before : Standing) :
    Keeps QuietFrame (maybeReapprove options aggregate before) := by
  unfold maybeReapprove
  dsimp only
  infer_instance

instance (env : Env) (aggregate : QuoteAggregate) (before : Standing) (actor : Actor) :
    Keeps QuietFrame (settleEdit env aggregate before actor) := by
  unfold settleEdit
  infer_instance

instance (env : Env) (aggregate : QuoteAggregate) (changes : List PortalLineChange) :
    Keeps QuietFrame (requestDiscounts env aggregate changes) := by
  unfold requestDiscounts
  split <;> infer_instance

/-- The operations whose edit writes stock. -/
def QuoteEdit.writesStock : QuoteEdit → Bool
  | planFulfillment .. => true
  | confirm .. => true
  | _ => false

set_option synthInstance.maxSize 2000 in
/-- Every other edit leaves stock and consumption alone. -/
theorem keeps_quiet (env : Env) {op : QuoteEdit} (hop : op.writesStock = false)
    (aggregate : QuoteAggregate) : Keeps QuietFrame ((op.mutation env).edit aggregate) := by
  cases op with
  | planFulfillment => cases hop
  | confirm => cases hop
  | applyPortalDecision =>
      unfold QuoteEdit.mutation applyPortalDecision
      dsimp only
      infer_instance
  | createPortalNegotiation =>
      unfold QuoteEdit.mutation createPortalNegotiation createNegotiationRequest Mutation.saving
      dsimp only
      infer_instance
  | _ =>
      show Keeps QuietFrame (some <$> _)
      dsimp only
      infer_instance

instance : Keeps QuietFrame nextQuoteNumber := by
  have hseq : Keeps QuietFrame (updateStore fun store => { store with quoteSeq := store.quoteSeq + 1 }) :=
    .write fun _ => ⟨rfl, le_rfl, rfl, rfl⟩
  unfold nextQuoteNumber
  infer_instance

set_option synthInstance.maxSize 2000 in
/-- Preparing a new quote is as quiet as editing one. -/
instance (env : Env) (customerId : Id) (ownerId : Option String) (inputs : List LineInput)
    (actor : Actor) : Keeps QuietFrame (draftQuote env customerId ownerId inputs actor) := by
  unfold draftQuote
  dsimp only
  infer_instance

instance (count : ℕ) : Keeps EditFrame (randomUUIDs count) :=
  Keeps.mono inferInstance fun _ _ => QuietFrame.edit

instance (stock : List StockLevel) : Keeps EditFrame (updateStore (Store.replaceStock stock)) :=
  .write fun _ => ⟨rfl, le_rfl, rfl⟩

instance (aggregate : QuoteAggregate) : Keeps EditFrame (consumeAllocations aggregate) := by
  have hconsumed (splits : List FulfillmentSplit) : Keeps EditFrame
      (write fun w => { w with consumed := w.consumed ++ splits } : Service PUnit) :=
    .write fun _ => ⟨rfl, le_rfl, rfl⟩
  unfold consumeAllocations
  infer_instance

set_option synthInstance.maxSize 2000 in
theorem keeps_edit (env : Env) (op : QuoteEdit) (aggregate : QuoteAggregate) :
    Keeps EditFrame ((op.mutation env).edit aggregate) := by
  cases hop : op.writesStock with
  | false => exact (keeps_quiet env hop aggregate).mono fun _ _ => QuietFrame.edit
  | true =>
      cases op with
      | planFulfillment =>
          show Keeps EditFrame (some <$> _)
          dsimp only
          infer_instance
      | confirm =>
          unfold QuoteEdit.mutation confirm
          dsimp only
          infer_instance
      | _ => cases hop

/-! ## Answers -/

instance : Keeps TailFrame randomUUID := by
  unfold randomUUID
  exact @Keeps.bind _ _ _ _ _ _ _ _ _ fun _ =>
    @Keeps.bind _ _ _ _ _ _ _ _ (.write fun _ => ⟨rfl, fun _ h => h, Nat.le_succ _, rfl⟩) _

instance (item : QuoteEmailDelivery) : Keeps TailFrame (updateStore (Store.saveQuoteEmail item)) :=
  .write fun _ => ⟨rfl, fun _ h => h, le_rfl, rfl⟩

/-- Restating a customer keeps every customer id. -/
theorem getCustomer_restated (store : Store) {existing updated : Customer}
    (hid : updated.id = existing.id) (id : Id) (h : (store.getCustomer id).isSome) :
    (({ store with
        customers := Table.modifyFirst (fun item => decide (item = existing)) (fun _ => updated)
          store.customers } : Store).getCustomer id).isSome := by
  have hids : (Table.modifyFirst (fun item => decide (item = existing)) (fun _ => updated)
      store.customers).map (·.id) = store.customers.map (·.id) := by
    induction store.customers with
    | nil => rfl
    | cons head rest ih =>
        rw [Table.modifyFirst]
        split
        · rename_i heq
          rw [List.map_cons, List.map_cons, hid, of_decide_eq_true heq]
        · rw [List.map_cons, List.map_cons, ih]
  unfold Store.getCustomer at h ⊢
  rw [List.find?_isSome] at h ⊢
  obtain ⟨found, hfound, hfoundId⟩ := h
  have hmem : found.id ∈ (Table.modifyFirst (fun item => decide (item = existing))
      (fun _ => updated) store.customers).map (·.id) := by
    rw [hids]
    exact List.mem_map_of_mem hfound
  obtain ⟨other, hother, hsame⟩ := List.mem_map.mp hmem
  exact ⟨other, hother, by rw [hsame]; exact hfoundId⟩

instance (platform : Platform) (input : CustomerInput) :
    Keeps TailFrame (upsertCustomer platform input) := by
  unfold upsertCustomer
  refine @Keeps.bind _ _ _ _ _ _ _ _ _ fun store => ?_
  split
  · refine @Keeps.bind _ _ _ _ _ _ _ _ (.write fun w => ⟨rfl, fun id h => ?_, le_rfl, rfl⟩) _
    refine getCustomer_restated w.store ?_ id h
    rfl
  · refine @Keeps.bind _ _ _ _ _ _ _ _ _ fun uuid =>
      @Keeps.bind _ _ _ _ _ _ _ _ (.write fun w => ⟨rfl, fun id h => ?_, le_rfl, rfl⟩) _
    unfold Store.getCustomer at h ⊢
    rw [List.find?_isSome] at h ⊢
    obtain ⟨found, hfound, hid⟩ := h
    exact ⟨found, List.mem_append_left _ hfound, hid⟩

instance (env : Env) (aggregate : QuoteAggregate) : Keeps TailFrame (decorate env aggregate) := by
  unfold decorate
  dsimp only
  infer_instance

instance (env : Env) (aggregate : QuoteAggregate) (eventType : QuoteEmailEvent)
    (recipient key : String) (document : QuoteEmailDocument)
    (existing : Option QuoteEmailDelivery) :
    Keeps TailFrame (startEmail env aggregate eventType recipient key document existing) := by
  cases existing <;> unfold startEmail <;> dsimp only <;> infer_instance

instance (env : Env) (eventType : QuoteEmailEvent) (aggregate : QuoteAggregate) :
    Keeps TailFrame (mailing env eventType aggregate) := by
  have houtbox (outbox : World → List SentEmail) : Keeps TailFrame
      (write fun w => { w with outbox := outbox w } : Service PUnit) :=
    .write fun _ => ⟨rfl, fun _ h => h, le_rfl, rfl⟩
  unfold mailing dispatchCustomerQuoteEmail
  dsimp only
  refine @Keeps.bind _ _ _ _ _ _ _ _ (@Keeps.bind _ _ _ _ _ _ _ _ _ fun existing => ?_) _
  split
  · infer_instance
  · infer_instance

theorem keeps_tail (env : Env) (op : QuoteEdit) (saved : QuoteAggregate) :
    Keeps TailFrame ((op.mutation env).tail saved) := by
  cases op with
  | createPortalNegotiation => exact inferInstanceAs (Keeps TailFrame (decorate env saved))
  | applyPortalDecision => exact inferInstanceAs (Keeps TailFrame (decorate env saved))
  | confirm =>
      unfold QuoteEdit.mutation confirm
      infer_instance
  | decide =>
      show Keeps TailFrame (_ >>= fun _ => decorate env saved)
      dsimp only
      infer_instance
  | _ =>
      show Keeps TailFrame (_ >>= fun _ => decorate env saved)
      infer_instance

theorem keeps_idle (env : Env) (op : QuoteEdit) (loaded : QuoteAggregate) :
    Keeps TailFrame ((op.mutation env).idle loaded) := by
  cases op with
  | confirm =>
      unfold QuoteEdit.mutation confirm
      infer_instance
  | _ => exact inferInstanceAs (Keeps TailFrame (decorate env loaded))

/-! ## Answers do not fail -/

section Total

instance : Total randomUUID := by
  unfold randomUUID
  infer_instance

instance (f : Store → Store) : Total (updateStore f) := by
  unfold updateStore
  infer_instance

instance (platform : Platform) (input : CustomerInput) : Total (upsertCustomer platform input) := by
  unfold upsertCustomer
  refine @Total.bind _ _ _ _ _ _ _ fun store => ?_
  split <;> infer_instance

instance (env : Env) (aggregate : QuoteAggregate) : Total (decorate env aggregate) := by
  unfold decorate
  dsimp only
  infer_instance

instance (env : Env) (aggregate : QuoteAggregate) (eventType : QuoteEmailEvent)
    (recipient key : String) (document : QuoteEmailDocument)
    (existing : Option QuoteEmailDelivery) :
    Total (startEmail env aggregate eventType recipient key document existing) := by
  cases existing <;> unfold startEmail <;> dsimp only <;> infer_instance

instance (env : Env) (eventType : QuoteEmailEvent) (aggregate : QuoteAggregate) :
    Total (mailing env eventType aggregate) := by
  unfold mailing dispatchCustomerQuoteEmail
  dsimp only
  refine @Total.bind _ _ _ _ _ _ (@Total.bind _ _ _ _ _ _ _ fun existing => ?_) _
  split
  · infer_instance
  · infer_instance

theorem total_tail (env : Env) (op : QuoteEdit) (saved : QuoteAggregate) :
    Total ((op.mutation env).tail saved) := by
  cases op with
  | createPortalNegotiation => exact inferInstanceAs (Total (decorate env saved))
  | applyPortalDecision => exact inferInstanceAs (Total (decorate env saved))
  | confirm =>
      unfold QuoteEdit.mutation confirm
      infer_instance
  | decide =>
      show Total (_ >>= fun _ => decorate env saved)
      dsimp only
      infer_instance
  | _ =>
      show Total (_ >>= fun _ => decorate env saved)
      infer_instance

end Total

/-! ## The catalog -/

/-- The writes a catalog edit can make. -/
inductive CatalogEdit.Writes : CatalogEdit → (Store → Store) → Prop
  | replaceQuantityBreaks {items} (next) :
      Writes (.replaceQuantityBreaks items) fun store => { store with quantityBreaks := next }
  | replaceRoleAuthorities {items} (next) :
      Writes (.replaceRoleAuthorities items) fun store => { store with roleAuthorities := next }
  | updateGovernance {input} (next) :
      Writes (.updateGovernance input) fun store => { store with governance := next }
  | upsertProduct {input actor} (product) :
      Writes (.upsertProduct input actor) (Store.upsertProduct product)
  | productStock {input actor} (row) : Writes (.upsertProduct input actor) (Store.upsertStock row)
  | productBreaks {input actor} (next) :
      Writes (.upsertProduct input actor) fun store => { store with quantityBreaks := next }
  | deleteProduct {id actor} : Writes (.deleteProduct id actor) (Store.deleteProduct id)
  | upsertCustomer {input actor} (customers : List Customer → List Customer) :
      Writes (.upsertCustomer input actor)
        fun store => { store with customers := customers store.customers }
  | deleteCustomer {id actor} : Writes (.deleteCustomer id actor) (Store.deleteCustomer id)
  | provisionCustomer {email displayName companyName} (customers : List Customer → List Customer) :
      Writes (.provisionCustomer email displayName companyName)
        fun store => { store with customers := customers store.customers }
  | upsertStock {row actor} : Writes (.upsertStock row actor) (Store.upsertStock row)
  | deleteStock {warehouseId productId actor} :
      Writes (.deleteStock warehouseId productId actor) (Store.deleteStock warehouseId productId)
  | upsertPolicy {policy actor} (next) : Writes (.upsertPolicy policy actor) (Store.upsertPolicy next)
  | deletePolicy {id actor} : Writes (.deletePolicy id actor) (Store.deletePolicy id)
  | upsertChain {input} (chain) : Writes (.upsertChain input) (Store.upsertChain chain)
  | deleteChain {id actor} : Writes (.deleteChain id actor) (Store.deleteChain id)
  | upsertWarehouse {id name cost actor} (warehouse) :
      Writes (.upsertWarehouse id name cost actor) (Store.upsertWarehouse warehouse)
  | deleteWarehouse {id actor} : Writes (.deleteWarehouse id actor) (Store.deleteWarehouse id)
  | upsertRelation {input actor} (relation) :
      Writes (.upsertRelation input actor) (Store.upsertRelation relation)
  | deleteRelation {id actor} : Writes (.deleteRelation id actor) (Store.deleteRelation id)

section Catalog

variable {R : World → World → Prop} [Std.Refl R] [IsTrans World R]

theorem keeps_upsertCustomer [Keeps R randomUUID]
    (hcustomers : ∀ customers : List Customer → List Customer,
      Keeps R (updateStore fun store => { store with customers := customers store.customers }))
    (platform : Platform) (input : CustomerInput) : Keeps R (upsertCustomer platform input) := by
  have happend (customer : Customer) : Keeps R (updateStore fun store =>
      { store with customers := store.customers ++ [customer] }) :=
    hcustomers fun customers => customers ++ [customer]
  have hmodify (p : Customer → Bool) (f : Customer → Customer) : Keeps R (updateStore fun store =>
      { store with customers := Table.modifyFirst p f store.customers }) :=
    hcustomers (Table.modifyFirst p f)
  unfold upsertCustomer
  refine @Keeps.bind _ _ _ _ _ _ _ _ _ fun store => ?_
  split <;> infer_instance

instance (actor : Actor) (message : String) : Keeps R (assertCatalogWrite actor message) := by
  unfold assertCatalogWrite
  infer_instance

instance (platform : Platform) (store : Store) (input : ProductInput) (current : Option Product)
    (product : Product) : Keeps R (checkProduct platform store input current product) := by
  unfold checkProduct
  dsimp only
  infer_instance

theorem keeps_replaceSentBreaks [∀ count, Keeps R (randomUUIDs count)]
    (hbreaks : ∀ next, Keeps R (updateStore fun store => { store with quantityBreaks := next }))
    (productId : Id) (inputs : Option (List ProductBreakInput)) (actor : Actor) :
    Keeps R (replaceSentBreaks productId inputs actor) := by
  cases inputs <;> unfold replaceSentBreaks
  · infer_instance
  · unfold replaceProductBreaks buildBreaks
    infer_instance

/-- Drawing ids stays inside a relation that advancing the supply stays inside. -/
theorem keeps_ids (hids : ∀ w n, w.nextUuid ≤ n → R w { w with nextUuid := n }) :
    Keeps R randomUUID ∧ ∀ count, Keeps R (randomUUIDs count) := by
  constructor
  · unfold randomUUID
    exact @Keeps.bind _ _ _ _ _ _ _ _ _ fun _ =>
      @Keeps.bind _ _ _ _ _ _ _ _ (.write fun w => hids w _ (Nat.le_succ _)) _
  · intro count
    unfold randomUUIDs
    exact @Keeps.bind _ _ _ _ _ _ _ _ _ fun _ =>
      @Keeps.bind _ _ _ _ _ _ _ _ (.write fun w => hids w _ (Nat.le_add_right _ _)) _

set_option synthInstance.maxSize 2000 in
/-- A catalog edit stays inside what drawing ids and each of its writes stay inside. -/
theorem keeps_catalog_of (hids : ∀ w n, w.nextUuid ≤ n → R w { w with nextUuid := n }) (env : Env)
    {op : CatalogEdit}
    (hstore : ∀ f, op.Writes f → ∀ w, R w { w with store := f w.store }) :
    Keeps R (op.program env) := by
  obtain ⟨hid, hidList⟩ := keeps_ids hids
  have hwrites (f : Store → Store) (hf : op.Writes f) : Keeps R (updateStore f) :=
    .write (hstore f hf)
  cases op with
  | replaceQuantityBreaks items =>
      have := fun next => hwrites _ (.replaceQuantityBreaks next)
      unfold CatalogEdit.program replaceQuantityBreaks
      infer_instance
  | replaceRoleAuthorities items =>
      have := fun next => hwrites _ (.replaceRoleAuthorities next)
      unfold CatalogEdit.program replaceRoleAuthorities
      infer_instance
  | updateGovernance input =>
      have := fun next => hwrites _ (.updateGovernance next)
      unfold CatalogEdit.program updateGovernance
      infer_instance
  | upsertProduct input actor =>
      have := fun product => hwrites _ (.upsertProduct product)
      have := fun row => hwrites _ (.productStock row)
      have := keeps_replaceSentBreaks fun next => hwrites _ (.productBreaks next)
      unfold CatalogEdit.program upsertProduct upsertStock
      infer_instance
  | deleteProduct id actor =>
      have := hwrites _ .deleteProduct
      unfold CatalogEdit.program deleteProduct
      infer_instance
  | upsertCustomer input actor =>
      have := keeps_upsertCustomer fun customers => hwrites _ (.upsertCustomer customers)
      unfold CatalogEdit.program editCustomer
      infer_instance
  | deleteCustomer id actor =>
      have := hwrites _ .deleteCustomer
      unfold CatalogEdit.program deleteCustomer
      infer_instance
  | provisionCustomer email displayName companyName =>
      have := keeps_upsertCustomer fun customers => hwrites _ (.provisionCustomer customers)
      unfold CatalogEdit.program provisionCustomer
      infer_instance
  | upsertStock row actor =>
      have := hwrites _ .upsertStock
      unfold CatalogEdit.program upsertStock
      infer_instance
  | deleteStock warehouseId productId actor =>
      have := hwrites _ .deleteStock
      unfold CatalogEdit.program deleteStock
      infer_instance
  | upsertPolicy policy actor =>
      have := fun next => hwrites _ (.upsertPolicy next)
      unfold CatalogEdit.program upsertPolicy
      infer_instance
  | deletePolicy id actor =>
      have := hwrites _ .deletePolicy
      unfold CatalogEdit.program deletePolicy
      infer_instance
  | upsertChain input =>
      have := fun chain => hwrites _ (.upsertChain chain)
      unfold CatalogEdit.program upsertChain
      infer_instance
  | deleteChain id actor =>
      have := hwrites _ .deleteChain
      unfold CatalogEdit.program deleteChain
      infer_instance
  | upsertWarehouse id name cost actor =>
      have := fun warehouse => hwrites _ (.upsertWarehouse warehouse)
      unfold CatalogEdit.program upsertWarehouse
      infer_instance
  | deleteWarehouse id actor =>
      have := hwrites _ .deleteWarehouse
      unfold CatalogEdit.program deleteWarehouse
      infer_instance
  | upsertRelation input actor =>
      have := fun relation => hwrites _ (.upsertRelation relation)
      unfold CatalogEdit.program upsertRelation
      infer_instance
  | deleteRelation id actor =>
      have := hwrites _ .deleteRelation
      unfold CatalogEdit.program deleteRelation
      infer_instance

end Catalog

/-- What a catalog edit may write: nothing of the quotes and what belongs to them. -/
structure CatalogFrame (w w' : World) : Prop where
  quotes : w'.store.quotes = w.store.quotes
  negotiations : w'.store.negotiations = w.store.negotiations
  emails : w'.store.emails = w.store.emails
  quoteSeq : w'.store.quoteSeq = w.store.quoteSeq
  nextUuid : w.nextUuid ≤ w'.nextUuid
  outbox : w'.outbox = w.outbox
  consumed : w'.consumed = w.consumed

instance : Std.Refl CatalogFrame := ⟨fun _ => ⟨rfl, rfl, rfl, rfl, le_rfl, rfl, rfl⟩⟩

instance : IsTrans World CatalogFrame where
  trans _ _ _ h₁ h₂ :=
    { quotes := h₂.quotes.trans h₁.quotes
      negotiations := h₂.negotiations.trans h₁.negotiations
      emails := h₂.emails.trans h₁.emails
      quoteSeq := h₂.quoteSeq.trans h₁.quoteSeq
      nextUuid := h₁.nextUuid.trans h₂.nextUuid
      outbox := h₂.outbox.trans h₁.outbox
      consumed := h₂.consumed.trans h₁.consumed }

theorem CatalogFrame.quotesKept {w w' : World} (h : CatalogFrame w w') : QuotesKept w w' where
  quotes := h.quotes
  nextUuid := h.nextUuid
  consumed := h.consumed

theorem keeps_catalog (env : Env) (op : CatalogEdit) : Keeps CatalogFrame (op.program env) := by
  refine keeps_catalog_of (fun w n hn => ⟨rfl, rfl, rfl, rfl, hn, rfl, rfl⟩) env fun f hf w => ?_
  cases hf with
  | deleteProduct =>
      unfold Store.deleteProduct
      split <;> exact ⟨rfl, rfl, rfl, rfl, le_rfl, rfl, rfl⟩
  | deleteWarehouse =>
      unfold Store.deleteWarehouse
      split <;> exact ⟨rfl, rfl, rfl, rfl, le_rfl, rfl, rfl⟩
  | _ => exact ⟨rfl, rfl, rfl, rfl, le_rfl, rfl, rfl⟩

section View

/-- An operation that only reads quotes answers for them and no more. -/
theorem keeps_view (env : Env) (op : QuoteRead) : Keeps TailFrame (op.program env) := by
  cases op with
  | getQuote quoteId =>
      unfold QuoteRead.program getQuote
      infer_instance
  | getQuoteByToken token =>
      unfold QuoteRead.program getQuoteByToken
      infer_instance
  | listQuotes =>
      unfold QuoteRead.program listQuotes
      infer_instance
  | recommendations quoteId =>
      unfold QuoteRead.program recommendations
      infer_instance

end View

end DealFlow360
