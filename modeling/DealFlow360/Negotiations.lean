import DealFlow360.Footprint

/-!
# What a request does to the negotiations

An edit writes at most one negotiation: a customer's request opens a new one, a
staff step moves an existing one to another status and leaves what was asked
for alone. `NegotiationWrite` says which for the edit of a loaded quote,
`NegotiationStep` for every request, also for one that throws after its write.

`write_of_edit` goes once through the edits, and `keeps_negotiations` through
everything that is not one; the table of negotiations is then described by
`NegotiationStep` alone. Ids come from the supply, so a new negotiation is not
one of the old ones. The modules about live negotiations, ownership and the
portal use nothing else about how negotiations are written.
-/

namespace DealFlow360

open Program

-- the instances below are found statement by statement, one node each

/-! ## Edits that leave the negotiations alone -/

/-- No negotiation is written. -/
structure NegotiationsKept (w w' : World) : Prop where
  negotiations : w'.store.negotiations = w.store.negotiations
  nextUuid : w.nextUuid ≤ w'.nextUuid

instance : Std.Refl NegotiationsKept := ⟨fun _ => ⟨rfl, le_rfl⟩⟩

instance : IsTrans World NegotiationsKept where
  trans _ _ _ h₁ h₂ :=
    { negotiations := h₂.negotiations.trans h₁.negotiations
      nextUuid := h₁.nextUuid.trans h₂.nextUuid }

theorem TailFrame.negotiationsKept {w w' : World} (h : TailFrame w w') : NegotiationsKept w w' where
  negotiations := by rw [h.store]
  nextUuid := h.nextUuid

instance : Keeps NegotiationsKept randomUUID := by
  unfold randomUUID
  exact @Keeps.bind _ _ _ _ _ _ _ _ _ fun _ =>
    @Keeps.bind _ _ _ _ _ _ _ _ (.write fun _ => ⟨rfl, Nat.le_succ _⟩) _

instance (count : ℕ) : Keeps NegotiationsKept (randomUUIDs count) := by
  unfold randomUUIDs
  exact @Keeps.bind _ _ _ _ _ _ _ _ _ fun _ =>
    @Keeps.bind _ _ _ _ _ _ _ _ (.write fun _ => ⟨rfl, Nat.le_add_right _ _⟩) _

instance (quoteId : Id) (input : LineInput) : Keeps NegotiationsKept (toLine quoteId input) := by
  unfold toLine
  infer_instance

instance (input : LineUpdate) (quoteId : Id) (rulePrice : Num) (line : QuoteLine) :
    Keeps NegotiationsKept (input.reprice quoteId rulePrice line) := by
  unfold LineUpdate.reprice
  split
  · infer_instance
  · split <;> infer_instance

instance (env : Env) (aggregate : QuoteAggregate) (actor : Actor) (materialChange : Bool) :
    Keeps NegotiationsKept (appendRevision env aggregate actor materialChange) := by
  unfold appendRevision
  infer_instance

instance (env : Env) (aggregate : QuoteAggregate) (actor : Actor) (material : Bool) :
    Keeps NegotiationsKept (finishMutation env aggregate actor material) := by
  unfold finishMutation
  dsimp only
  infer_instance

instance (options : Options) (aggregate : QuoteAggregate) (before : Standing) :
    Keeps NegotiationsKept (maybeReapprove options aggregate before) := by
  unfold maybeReapprove
  dsimp only
  infer_instance

instance (env : Env) (aggregate : QuoteAggregate) (before : Standing) (actor : Actor) :
    Keeps NegotiationsKept (settleEdit env aggregate before actor) := by
  unfold settleEdit
  infer_instance

instance (stock : List StockLevel) :
    Keeps NegotiationsKept (updateStore (Store.replaceStock stock)) :=
  .write fun _ => ⟨rfl, le_rfl⟩

instance (aggregate : QuoteAggregate) : Keeps NegotiationsKept (consumeAllocations aggregate) := by
  have hconsumed (splits : List FulfillmentSplit) : Keeps NegotiationsKept
      (write fun w => { w with consumed := w.consumed ++ splits } : Service PUnit) :=
    .write fun _ => ⟨rfl, le_rfl⟩
  unfold consumeAllocations
  infer_instance

/-- The operations that write a negotiation. -/
def QuoteEdit.negotiates : QuoteEdit → Bool
  | createNegotiationRequest .. | createPortalNegotiation .. | applyPortalChange .. => true
  | respondToNegotiation .. | sendNegotiationToManager .. | reviseAsManager .. => true
  | returnRevisedQuote .. | agreeToFinal .. => true
  | _ => false

set_option synthInstance.maxSize 2000 in
theorem keeps_negotiations (env : Env) {op : QuoteEdit} (hop : op.negotiates = false)
    (aggregate : QuoteAggregate) :
    Keeps NegotiationsKept ((op.mutation env).edit aggregate) := by
  cases op with
  | createNegotiationRequest => cases hop
  | createPortalNegotiation => cases hop
  | applyPortalChange => cases hop
  | respondToNegotiation => cases hop
  | sendNegotiationToManager => cases hop
  | reviseAsManager => cases hop
  | returnRevisedQuote => cases hop
  | agreeToFinal => cases hop
  | applyPortalDecision =>
      unfold QuoteEdit.mutation applyPortalDecision
      dsimp only
      infer_instance
  | confirm =>
      unfold QuoteEdit.mutation confirm
      dsimp only
      infer_instance
  | _ =>
      show Keeps NegotiationsKept (some <$> _)
      dsimp only
      infer_instance

/-! ## Edits that write one -/

/-- The discounts a proposal asks for. -/
def QuoteEdit.askedDiscounts : QuoteEdit → List Num
  | createNegotiationRequest _ input _ => input.requestedLines.filterMap (·.discountPercent)
  | createPortalNegotiation _ input => input.requestedLines.filterMap (·.discountPercent)
  | applyPortalChange _ _ changes => changes.filterMap (·.discountPercent)
  | _ => []

/-- No negotiation of the quote is open. -/
def NoneOpen (store : Store) (quoteId : Id) : Prop :=
  ∀ request ∈ store.negotiations, request.quoteId = quoteId → request.status ≠ .opened

/-- What the edit of the loaded quote `a` may do to the negotiations of `w`. -/
inductive NegotiationWrite (w w' : World) (a : QuoteAggregate) (op : QuoteEdit) : Prop
  | none (hkept : NegotiationsKept w w')
  /-- A request of the customer's side is opened. A discount asked for in the portal is one too, and
  there nobody asks whether another request is open. -/
  | opened {request} (hop : op.isProposal = true) (hid : request.id = w.nextUuid)
      (hnext : w.nextUuid < w'.nextUuid) (hquote : request.quoteId = a.id)
      (hstatus : request.status = .opened)
      (hasked : ∀ item ∈ request.requestedLines, ∀ d ∈ item.discountPercent, d ∈ op.askedDiscounts)
      (hclear : NoneOpen w.store a.id ∨
        (∃ token version changes, op = .applyPortalChange token version changes) ∧
          op.askedDiscounts ≠ [])
      (hnegotiations : w'.store.negotiations = Table.upsert (·.id) request w.store.negotiations)
  /-- An existing request moves to another status. -/
  | moved {request next} (hmem : request ∈ w.store.negotiations) (hid : next.id = request.id)
      (hquote : next.quoteId = request.quoteId)
      (hlines : next.requestedLines = request.requestedLines) (hstatus : next.status ≠ .opened)
      (hnext : w.nextUuid ≤ w'.nextUuid)
      (hnegotiations : w'.store.negotiations = Table.upsert (·.id) next w.store.negotiations)

section Writes

variable {env : Env} {w w₁ w' : World} {a : QuoteAggregate} {op : QuoteEdit}

theorem NegotiationWrite.refl : NegotiationWrite w w a op := .none (Std.Refl.refl w)

/-- What follows without writing a negotiation leaves the write as it was. -/
theorem NegotiationWrite.trans (h : NegotiationWrite w w₁ a op) (hkept : NegotiationsKept w₁ w') :
    NegotiationWrite w w' a op := by
  cases h with
  | none hfirst => exact .none (IsTrans.trans _ _ _ hfirst hkept)
  | opened hop hid hnext hquote hstatus hasked hclear hnegotiations =>
      exact .opened hop hid (hnext.trans_le hkept.nextUuid) hquote hstatus hasked hclear
        (hkept.negotiations.trans hnegotiations)
  | moved hmem hid hquote hlines hstatus hnext hnegotiations =>
      exact .moved hmem hid hquote hlines hstatus (hnext.trans hkept.nextUuid)
        (hkept.negotiations.trans hnegotiations)

/-- A statement that only reads writes no negotiation either. -/
theorem NegotiationWrite.of_readOnly {β γ : Type} {x : Service β} [Keeps (· = ·) x]
    {rest : β → Service γ}
    (h : ∀ v, x w = .ok v w → NegotiationWrite w (after (rest v) w) a op) :
    NegotiationWrite w (after (x >>= rest) w) a op :=
  after_bind_of_readOnly (P := fun w' => NegotiationWrite w w' a op) .refl h

theorem mem_of_getNegotiation {store : Store} {id : Id} {request : NegotiationRequest}
    (h : store.getNegotiation id = some request) : request ∈ store.negotiations :=
  List.mem_of_find?_eq_some h

theorem findNegotiation_eq_ok {store : Store} {quoteId negotiationId : Id}
    {request : NegotiationRequest}
    (h : findNegotiation store quoteId negotiationId = .ok request) :
    store.getNegotiation negotiationId = some request ∧ request.quoteId = quoteId := by
  unfold findNegotiation at h
  split at h
  · rename_i found hfound
    obtain rfl := Except.ok.inj h
    obtain ⟨hget, hquote⟩ := Option.filter_eq_some_iff.mp hfound
    exact ⟨hget, of_decide_eq_true hquote⟩
  · cases h

theorem mem_listNegotiations {store : Store} {quoteId : Id} {request : NegotiationRequest} :
    request ∈ store.listNegotiations quoteId ↔
      request ∈ store.negotiations ∧ request.quoteId = quoteId := by
  unfold Store.listNegotiations
  rw [mem_sortBy, List.mem_filter, decide_eq_true_eq]

theorem mem_of_latestNegotiation {store : Store} {quoteId : Id} {request : NegotiationRequest}
    (h : latestNegotiation store quoteId = some request) :
    request ∈ store.negotiations ∧ request.quoteId = quoteId :=
  mem_listNegotiations.mp (mem_sortBy.mp (List.mem_of_mem_head? h))

/-- Storing a stored request with another status. -/
theorem NegotiationWrite.restated {request : NegotiationRequest} (next : NegotiationRequest)
    (hmem : request ∈ w.store.negotiations) (hid : next.id = request.id)
    (hquote : next.quoteId = request.quoteId)
    (hlines : next.requestedLines = request.requestedLines) (hstatus : next.status ≠ .opened) :
    NegotiationWrite w { w with store := w.store.saveNegotiation next } a op :=
  .moved hmem hid hquote hlines hstatus le_rfl rfl

/-- Marking a stored request, then writing no other. -/
theorem markNegotiation_write {β : Type} {request : NegotiationRequest} {status : NegotiationStatus}
    {rest : PUnit → Service β} (hrest : Keeps NegotiationsKept (rest ⟨⟩))
    (hmem : request ∈ w.store.negotiations) (hstatus : status ≠ .opened) :
    NegotiationWrite w (after (markNegotiation env request status >>= rest) w) a op := by
  unfold markNegotiation
  rw [after_bind_of_ok ((updateStore_eq_ok (u := ⟨⟩)).mpr rfl)]
  exact (NegotiationWrite.restated { request with status, updatedAt := env.now } hmem rfl rfl rfl
    hstatus).trans (hrest.keeps _)

theorem markIfFound_write {β : Type} {request : Option NegotiationRequest}
    {status : NegotiationStatus} {rest : PUnit → Service β}
    (hrest : Keeps NegotiationsKept (rest ⟨⟩))
    (hmem : ∀ found ∈ request, found ∈ w.store.negotiations) (hstatus : status ≠ .opened) :
    NegotiationWrite w (after (markIfFound env request status >>= rest) w) a op := by
  cases request with
  | none =>
      unfold markIfFound
      rw [after_bind_of_ok (pure_eq_ok.mpr ⟨rfl, rfl⟩)]
      exact .none (hrest.keeps w)
  | some found => exact markNegotiation_write hrest (hmem found rfl) hstatus

theorem createNegotiationRequest_write {quoteId : Id} {input : NegotiationInput}
    {actor : Option Actor} (hid : a.id = quoteId) (hop : op.isProposal = true)
    (hasked : input.requestedLines.filterMap (·.discountPercent) = op.askedDiscounts) :
    NegotiationWrite w (after ((createNegotiationRequest env quoteId input actor).edit a) w) a op := by
  simp only [createNegotiationRequest, Mutation.saving, after_map]
  refine .of_readOnly fun _ _ => .of_readOnly fun _ _ => .of_readOnly fun store hstore =>
    .of_readOnly fun _ hclear => .of_readOnly fun moved _ => ?_
  obtain ⟨rfl, -⟩ := read_eq_ok.mp hstore
  rw [after_bind_of_ok (randomUUID_eq_ok.mpr ⟨rfl, rfl⟩), after_bind_of_ok ((updateStore_eq_ok (u := ⟨⟩)).mpr rfl)]
  refine .opened hop rfl (Nat.lt_succ_self _) hid.symm rfl ?_ (.inl ?_) rfl
  · intro item hitem d hd
    obtain ⟨line, hline, rfl⟩ := List.mem_map.mp hitem
    rw [← hasked]
    exact List.mem_filterMap.mpr ⟨line, hline, hd⟩
  · intro request hrequest hquote hopened
    refine (throwIf_eq_ok.mp hclear).1 (List.any_eq_true.mpr ⟨request, ?_, decide_eq_true hopened⟩)
    exact mem_listNegotiations.mpr ⟨hrequest, hquote.trans hid⟩

theorem requestDiscounts_write {β : Type} {token : Id} {version : ℕ}
    {changes : List PortalLineChange} {edited : QuoteAggregate} {rest : QuoteAggregate → Service β}
    (hid : edited.id = a.id) (hrest : ∀ b, Keeps NegotiationsKept (rest b)) :
    NegotiationWrite w (after (requestDiscounts env edited changes >>= rest) w) a
      (.applyPortalChange token version changes) := by
  unfold requestDiscounts
  cases hasked : changes.filterMap (·.discountPercent) with
  | nil =>
      rw [after_bind_of_ok (pure_eq_ok.mpr ⟨rfl, rfl⟩)]
      exact .none ((hrest _).keeps w)
  | cons first others =>
      dsimp only
      simp only [bind_assoc]
      rw [after_bind_of_ok (randomUUID_eq_ok.mpr ⟨rfl, rfl⟩),
        after_bind_of_ok ((updateStore_eq_ok (u := ⟨⟩)).mpr rfl), after_bind_of_ok (pure_eq_ok.mpr ⟨rfl, rfl⟩)]
      refine NegotiationWrite.trans (.opened rfl rfl (Nat.lt_succ_self _) hid rfl ?_ (.inr ⟨⟨_, _, _, rfl⟩, ?_⟩)
        rfl) ((hrest _).keeps _)
      · intro item hitem d hd
        obtain ⟨change, hchange, rfl⟩ := List.mem_map.mp hitem
        exact List.mem_filterMap.mpr ⟨change, hchange, hd⟩
      · show changes.filterMap (·.discountPercent) ≠ []
        rw [hasked]
        exact List.cons_ne_nil _ _

theorem applyPortalChange_write {token : Id} {version : ℕ} {changes : List PortalLineChange} :
    NegotiationWrite w (after ((applyPortalChange env token version changes).edit a) w) a
      (.applyPortalChange token version changes) := by
  simp only [applyPortalChange, Mutation.saving, after_map]
  refine .of_readOnly fun _ _ => .of_readOnly fun _ _ => .of_readOnly fun moved hmoved =>
    .of_readOnly fun store _ => .of_readOnly fun lines _ => ?_
  obtain ⟨-, rfl, -⟩ := moveTo_eq_ok.mp hmoved
  exact requestDiscounts_write rfl fun b => inferInstance

theorem respondToNegotiation_write {quoteId negotiationId : Id} {decision : NegotiationResponse}
    {note : String} {version : ℕ} {actor : Actor} :
    NegotiationWrite w
      (after ((respondToNegotiation env quoteId negotiationId decision note version actor).edit a) w)
      a op := by
  simp only [respondToNegotiation, Mutation.saving, after_map]
  refine .of_readOnly fun _ _ => .of_readOnly fun store hstore => .of_readOnly fun request hrequest =>
    .of_readOnly fun lines _ => ?_
  obtain ⟨rfl, -⟩ := read_eq_ok.mp hstore
  obtain ⟨hget, -⟩ := findNegotiation_eq_ok (lift_eq_ok.mp hrequest).1
  rw [after_bind_of_ok ((updateStore_eq_ok (u := ⟨⟩)).mpr rfl)]
  refine .restated
    { request with
      status := decision.status
      responseNote := some (trim note)
      respondedBy := some actor.id
      respondedAt := some env.now
      updatedAt := env.now } (mem_of_getNegotiation hget) rfl rfl rfl ?_
  show decision.status ≠ .opened
  cases decision <;> decide

theorem sendNegotiationToManager_write {quoteId : Id} {negotiationId : Option Id} {version : ℕ} :
    NegotiationWrite w
      (after ((sendNegotiationToManager env quoteId negotiationId version).edit a) w) a op := by
  simp only [sendNegotiationToManager, Mutation.saving, after_map]
  refine .of_readOnly fun _ _ => .of_readOnly fun _ _ => .of_readOnly fun moved _ => ?_
  cases negotiationId with
  | none => exact .none ((inferInstance : Keeps NegotiationsKept (pure moved >>= _)).keeps w)
  | some negotiationId =>
      unfold handOver
      simp only [bind_assoc]
      refine .of_readOnly fun store hstore => .of_readOnly fun request hrequest => ?_
      obtain ⟨rfl, -⟩ := read_eq_ok.mp hstore
      obtain ⟨hget, -⟩ := findNegotiation_eq_ok (lift_eq_ok.mp hrequest).1
      exact markNegotiation_write inferInstance (mem_of_getNegotiation hget) (by decide)

theorem reviseAsManager_write {quoteId : Id} {changes : List ManagerChange} {version : ℕ}
    {actor : Actor} :
    NegotiationWrite w (after ((reviseAsManager env quoteId changes version actor).edit a) w) a
      op := by
  simp only [reviseAsManager, Mutation.saving, after_map]
  refine .of_readOnly fun _ _ => .of_readOnly fun _ _ => .of_readOnly fun store hstore =>
    .of_readOnly fun revised _ => .of_readOnly fun _ _ => ?_
  obtain ⟨rfl, -⟩ := read_eq_ok.mp hstore
  refine markIfFound_write inferInstance (fun found hfound => ?_) (by decide)
  obtain ⟨id, -, hget⟩ := Option.bind_eq_some_iff.mp hfound
  exact mem_of_getNegotiation hget

theorem returnRevisedQuote_write {quoteId : Id} {negotiationId : Option Id} {actor : Actor}
    {version : ℕ} :
    NegotiationWrite w
      (after ((returnRevisedQuote env quoteId negotiationId actor version).edit a) w) a op := by
  simp only [returnRevisedQuote, Mutation.saving, after_map]
  refine .of_readOnly fun _ _ => .of_readOnly fun _ _ => .of_readOnly fun moved _ =>
    .of_readOnly fun store hstore => ?_
  obtain ⟨rfl, -⟩ := read_eq_ok.mp hstore
  refine markIfFound_write inferInstance (fun found hfound => ?_) (by decide)
  obtain ⟨hbind, -⟩ := Option.filter_eq_some_iff.mp hfound
  obtain ⟨id, -, hget⟩ := Option.bind_eq_some_iff.mp hbind
  exact mem_of_getNegotiation hget

theorem agreeToFinal_write {quoteId : Id} {version : ℕ} :
    NegotiationWrite w (after ((agreeToFinal env quoteId version).edit a) w) a op := by
  simp only [agreeToFinal, Mutation.saving, after_map]
  refine .of_readOnly fun _ _ => .of_readOnly fun _ _ => .of_readOnly fun store hstore =>
    .of_readOnly fun _ _ => ?_
  obtain ⟨rfl, -⟩ := read_eq_ok.mp hstore
  cases hlatest : latestNegotiation w.store quoteId with
  | none => exact .none ((inferInstance : Keeps NegotiationsKept (pure a >>= _)).keeps w)
  | some latest =>
      unfold agreeNegotiation
      simp only [bind_assoc]
      exact markNegotiation_write inferInstance (mem_of_latestNegotiation hlatest).1 (by decide)

/-- Every edit of a loaded quote writes at most one negotiation. -/
theorem write_of_edit (hload : (op.mutation env).load w = .ok a w) :
    NegotiationWrite w (after ((op.mutation env).edit a) w) a op := by
  have hkept (hop : op.negotiates = false) :
      NegotiationWrite w (after ((op.mutation env).edit a) w) a op :=
    .none ((keeps_negotiations env hop a).keeps w)
  cases op with
  | createNegotiationRequest quoteId =>
      obtain ⟨q, hq, hid⟩ := loaded_of_load (show load quoteId w = .ok a w from hload)
      refine createNegotiationRequest_write ?_ rfl rfl
      rw [QuoteAggregate.id, hq.quote]
      exact hid
  | createPortalNegotiation => exact createNegotiationRequest_write rfl rfl rfl
  | applyPortalChange => exact applyPortalChange_write
  | respondToNegotiation => exact respondToNegotiation_write
  | sendNegotiationToManager => exact sendNegotiationToManager_write
  | reviseAsManager => exact reviseAsManager_write
  | returnRevisedQuote => exact returnRevisedQuote_write
  | agreeToFinal => exact agreeToFinal_write
  | _ => exact hkept rfl

end Writes

/-! ## Every request -/

/-- What a request does to the negotiations. -/
inductive NegotiationStep (options : Options) (w w' : World) (request : Request) : Prop
  | kept (hkept : NegotiationsKept w w')
  | edited {op q a} (hop : request.operation = .edit op)
      (hload : (op.mutation (request.env options)).load w = .ok a w) (hq : Loaded w.store q a)
      (hwrite : NegotiationWrite w w' a op)
  | deleted {quoteId} (hnext : w.nextUuid ≤ w'.nextUuid)
      (hnegotiations : w'.store.negotiations
        = w.store.negotiations.filter fun item => item.quoteId ≠ quoteId)

variable {options : Options} {w : World} {request : Request}

theorem negotiationStep_of_edit {op : QuoteEdit} (hop : request.operation = .edit op) :
    NegotiationStep options w (serve options w request) request := by
  rcases outcome_of_serve hop with hworld | ⟨q, a, hload, hq, houtcome⟩
  · rw [hworld]
    exact .kept (Std.Refl.refl w)
  · have hwrite := write_of_edit hload
    refine .edited hop hload hq ?_
    cases houtcome with
    | failed hedit =>
        rw [after_of_error hedit] at hwrite
        exact hwrite
    | idle hedit htail =>
        rw [after_of_ok hedit] at hwrite
        exact hwrite.trans htail.negotiationsKept
    | unpriced hedit hpairs =>
        rw [after_of_ok hedit] at hwrite
        exact hwrite
    | @saved b w₁ pairs hedit hpairs htail =>
        rw [after_of_ok hedit] at hwrite
        have hsave : NegotiationsKept w₁
            (w₁.withQuote (savedRecord (request.env options) w₁.store b pairs)) := ⟨rfl, le_rfl⟩
        exact hwrite.trans (IsTrans.trans _ _ _ hsave htail.negotiationsKept)

set_option synthInstance.maxSize 2000 in
/-- Creating, assessing and reading quotes writes no negotiation. -/
theorem keeps_negotiations_plain (env : Env) {operation : Operation}
    (hop : operation.isPlain = true) (hdelete : ∀ id actor version, operation ≠ .deleteQuote id actor version) :
    Keeps NegotiationsKept (operation.program env) := by
  have hsave (record : QuoteAggregate) : Keeps NegotiationsKept (updateStore (Store.setQuote record)) :=
    .write fun _ => ⟨rfl, le_rfl⟩
  have hanswer (a : QuoteAggregate) : Keeps NegotiationsKept (decorate env a) :=
    Keeps.mono inferInstance fun _ _ => TailFrame.negotiationsKept
  have hnumber : Keeps NegotiationsKept nextQuoteNumber := by
    have hseq : Keeps NegotiationsKept
        (updateStore fun store => { store with quoteSeq := store.quoteSeq + 1 }) :=
      .write fun _ => ⟨rfl, le_rfl⟩
    unfold nextQuoteNumber
    infer_instance
  cases operation with
  | edit op => cases hop
  | catalog op => cases hop
  | deleteQuote => exact absurd rfl (hdelete _ _ _)
  | createQuote customerId ownerId inputs actor =>
      have hdraft : Keeps NegotiationsKept (draftQuote env customerId ownerId inputs actor) := by
        unfold draftQuote
        dsimp only
        infer_instance
      unfold Operation.program createQuote saveAssessed saveQuote
      infer_instance
  | assess quoteId =>
      unfold Operation.program assess saveQuote
      infer_instance
  | view op => exact (keeps_view env op).mono fun _ _ => TailFrame.negotiationsKept

theorem negotiationStep_of_serve (options : Options) (w : World) (request : Request) :
    NegotiationStep options w (serve options w request) request := by
  cases hop : request.operation with
  | edit op => exact negotiationStep_of_edit hop
  | catalog op =>
      have hserve : serve options w request = after (op.program (request.env options)) w := by
        unfold serve Request.program
        rw [hop]
        rfl
      have hframe := (keeps_catalog (request.env options) op).keeps w
      rw [hserve]
      exact .kept ⟨hframe.negotiations, hframe.nextUuid⟩
  | deleteQuote quoteId actor version =>
      have hserve : serve options w request = after (deleteQuote quoteId actor version) w := by
        unfold serve Request.program
        rw [hop]
        rfl
      have hreads : Keeps (· = ·) (assertDeletable quoteId actor version) := by
        unfold assertDeletable
        dsimp only
        infer_instance
      rw [hserve, deleteQuote]
      exact after_bind_of_readOnly (P := fun w' => NegotiationStep options w w' request)
        (.kept (Std.Refl.refl w)) fun _ _ => .deleted le_rfl rfl
  | _ =>
      have hkeeps : Keeps NegotiationsKept (request.operation.program (request.env options)) :=
        keeps_negotiations_plain _ (by rw [hop]; rfl) (by rw [hop]; exact fun _ _ _ h => by cases h)
      exact .kept (hkeeps.keeps w)

/-! ## Ids -/

/-- The negotiations have distinct ids, all taken from the supply. -/
structure NegotiationsIndexed (w : World) : Prop where
  distinct : Table.Distinct NegotiationRequest.id w.store.negotiations
  fresh : ∀ request ∈ w.store.negotiations, request.id < w.nextUuid

theorem World.Fresh.negotiationsIndexed (h : w.Fresh) : NegotiationsIndexed w where
  distinct := by
    rw [h.negotiations]
    exact List.nodup_nil
  fresh := by
    rw [h.negotiations]
    exact fun request hrequest => absurd hrequest List.not_mem_nil

theorem NegotiationsIndexed.serve (h : NegotiationsIndexed w) (options : Options)
    (request : Request) : NegotiationsIndexed (serve options w request) := by
  cases negotiationStep_of_serve options w request with
  | kept hkept =>
      refine ⟨?_, fun item hitem => ?_⟩
      · rw [hkept.negotiations]
        exact h.distinct
      · rw [hkept.negotiations] at hitem
        exact (h.fresh item hitem).trans_le hkept.nextUuid
  | deleted hnext hnegotiations =>
      refine ⟨?_, fun item hitem => ?_⟩
      · rw [hnegotiations]
        exact Table.distinct_filter h.distinct _
      · rw [hnegotiations] at hitem
        exact (h.fresh item (List.mem_of_mem_filter hitem)).trans_le hnext
  | edited hop hload hq hwrite =>
      cases hwrite with
      | none hkept =>
          refine ⟨?_, fun item hitem => ?_⟩
          · rw [hkept.negotiations]
            exact h.distinct
          · rw [hkept.negotiations] at hitem
            exact (h.fresh item hitem).trans_le hkept.nextUuid
      | opened hop hid hnext hquote hstatus hasked hclear hnegotiations =>
          refine ⟨?_, fun item hitem => ?_⟩
          · rw [hnegotiations]
            exact Table.distinct_upsert h.distinct _
          · rw [hnegotiations] at hitem
            rcases Table.mem_upsert hitem with rfl | hitem
            · rw [hid]
              exact hnext
            · exact (h.fresh item hitem).trans hnext
      | moved hmem hid hquote hlines hstatus hnext hnegotiations =>
          refine ⟨?_, fun item hitem => ?_⟩
          · rw [hnegotiations]
            exact Table.distinct_upsert h.distinct _
          · rw [hnegotiations] at hitem
            rcases Table.mem_upsert hitem with rfl | hitem
            · rw [hid]
              exact (h.fresh _ hmem).trans_le hnext
            · exact (h.fresh item hitem).trans_le hnext

end DealFlow360
