import DealFlow360.Changes

/-!
# What a request does to the world

A request either leaves the quotes as they are, or it stores one quote, or it
deletes one. `Outcome` says which for an edit, with everything known about the
edit it stores; `Effect` says it for every operation, as far as the quotes go.

Loading, preparing, saving and answering are taken apart here, with what is
known when each of them has succeeded:

- `after_saveAssessed`: a save writes its record, unless a line has no product;
- `finish_returns` and `succeeds_of_saved`: when a prepared edit is served;
- `outcome_of_run` and `saved_of_succeeds`: what a run of an edit was;
- `effect_of_serve`: what any request did to the table of quotes.

Everything after this module speaks of effects and changes and runs no program
again.
-/

namespace DealFlow360

open Program

/-! ## Loading -/

theorem attach_eq_ok {store : Store} {q a : QuoteAggregate} :
    store.attach q = .ok a ↔
      ∃ customer, store.getCustomer q.quote.customerId = some customer ∧
        { q with
          customer
          products := q.lines.filterMap fun line => store.getProduct line.productId } = a := by
  unfold Store.attach
  cases store.getCustomer q.quote.customerId <;> simp

/-- `a` is the stored quote `q` as a reader of the store sees it. -/
structure Loaded (store : Store) (q a : QuoteAggregate) : Prop where
  mem : q ∈ store.quotes
  attach : store.attach q = .ok a

namespace Loaded

variable {store : Store} {q a : QuoteAggregate}

theorem core (h : Loaded store q a) : a.core = q.core := core_attach h.attach

theorem customer (h : Loaded store q a) : store.getCustomer q.quote.customerId = some a.customer := by
  obtain ⟨customer, hcustomer, rfl⟩ := attach_eq_ok.mp h.attach
  exact hcustomer

theorem quote (h : Loaded store q a) : a.quote = q.quote := by
  obtain ⟨customer, -, rfl⟩ := attach_eq_ok.mp h.attach
  rfl

theorem lines (h : Loaded store q a) : a.lines = q.lines := eq_of_core (·.lines) h.core (fun _ => rfl)

theorem approvals (h : Loaded store q a) : a.approvals = q.approvals :=
  eq_of_core (·.approvals) h.core (fun _ => rfl)

theorem allocations (h : Loaded store q a) : a.allocations = q.allocations :=
  eq_of_core (·.allocations) h.core (fun _ => rfl)

theorem schedules (h : Loaded store q a) : a.schedules = q.schedules :=
  eq_of_core (·.schedules) h.core (fun _ => rfl)

end Loaded

/-- The tier of a quote's customer. -/
def Store.tierOf (store : Store) (q : QuoteAggregate) : Option CustomerTier :=
  (store.getCustomer q.quote.customerId).map (·.tier)

theorem Loaded.tierOf {store : Store} {q a : QuoteAggregate} (h : Loaded store q a) :
    store.tierOf q = some a.customer.tier := by
  unfold Store.tierOf
  rw [h.customer]
  rfl

theorem tierOf_of_identity {store : Store} {q q' : QuoteAggregate} (h : q'.identity = q.identity) :
    store.tierOf q' = store.tierOf q := by
  unfold Store.tierOf
  rw [show q'.quote.customerId = q.quote.customerId from congrArg (·.2.1) h]

theorem load_eq_ok {id : Id} {w w' : World} {a : QuoteAggregate} (h : load id w = .ok a w') :
    w' = w ∧ ∃ q, w.store.storedQuote id = some q ∧ w.store.attach q = .ok a := by
  have hworld : w' = w := readOnly_of_ok h
  refine ⟨hworld, ?_⟩
  unfold load getStoredQuote at h
  simp only [bind_eq_ok, read_eq_ok, orThrow_eq_ok] at h
  obtain ⟨_, _, ⟨_, _, ⟨rfl, rfl⟩, h⟩, rfl, rfl⟩ := h
  cases hfind : w.store.storedQuote id with
  | none => simp [hfind] at h
  | some q =>
      simp only [hfind, bind_eq_ok, lift_eq_ok, pure_eq_ok, Option.some.injEq] at h
      obtain ⟨_, _, ⟨hattach, rfl⟩, rfl, -⟩ := h
      exact ⟨q, rfl, hattach⟩

theorem loaded_of_load {id : Id} {w w' : World} {a : QuoteAggregate} (h : load id w = .ok a w') :
    ∃ q, Loaded w.store q a ∧ q.id = id := by
  obtain ⟨-, q, hfind, hattach⟩ := load_eq_ok h
  exact ⟨q, ⟨Table.mem_of_lookup hfind, hattach⟩, Table.key_of_lookup hfind⟩

theorem loaded_of_loadByToken {token : Id} {w w' : World} {a : QuoteAggregate}
    (h : loadByToken token w = .ok a w') : ∃ q, Loaded w.store q a := by
  unfold loadByToken getStoredQuote at h
  simp only [bind_eq_ok, read_eq_ok, orThrow_eq_ok] at h
  obtain ⟨_, _, ⟨_, _, ⟨rfl, rfl⟩, h⟩, rfl, rfl⟩ := h
  cases hfind : w.store.storedByToken token with
  | none => simp [hfind] at h
  | some q =>
      simp only [hfind, bind_eq_ok, lift_eq_ok, pure_eq_ok, Option.some.injEq] at h
      obtain ⟨_, _, ⟨hattach, rfl⟩, rfl, -⟩ := h
      exact ⟨q, List.mem_of_find?_eq_some hfind, hattach⟩

instance {R : World → World → Prop} [Std.Refl R] [IsTrans World R] (env : Env) (op : QuoteEdit) :
    Keeps R (op.mutation env).load := by
  cases op with
  | applyPortalDecision =>
      unfold QuoteEdit.mutation applyPortalDecision
      infer_instance
  | createPortalNegotiation =>
      unfold QuoteEdit.mutation createPortalNegotiation
      infer_instance
  | applyPortalChange token => exact inferInstanceAs (Keeps R (loadByToken token))
  | voidQuote quoteId actor => exact inferInstanceAs (Keeps R (throwIf _ _ >>= fun _ => load quoteId))
  | reviseAsManager quoteId changes version actor =>
      exact inferInstanceAs (Keeps R (assertManagerActor actor >>= fun _ => load quoteId))
  | returnRevisedQuote quoteId negotiationId actor =>
      exact inferInstanceAs (Keeps R (assertManagerActor actor >>= fun _ => load quoteId))
  | finalizeQuotation quoteId actor =>
      exact inferInstanceAs (Keeps R (assertManagerActor actor >>= fun _ => load quoteId))
  | _ quoteId => exact inferInstanceAs (Keeps R (load quoteId))

/-- Every edit works on a stored quote as a reader sees it. -/
theorem loaded_of_edit {env : Env} {op : QuoteEdit} {w w' : World} {a : QuoteAggregate}
    (h : (op.mutation env).load w = .ok a w') : w' = w ∧ ∃ q, Loaded w.store q a := by
  have hloaded {id : Id} {w' : World} (h : load id w = .ok a w') : ∃ q, Loaded w.store q a := by
    obtain ⟨q, hq, -⟩ := loaded_of_load h
    exact ⟨q, hq⟩
  refine ⟨readOnly_of_ok h, ?_⟩
  cases op with
  | applyPortalDecision =>
      simp only [QuoteEdit.mutation, applyPortalDecision, bind_eq_ok, throwIf_eq_ok] at h
      obtain ⟨_, _, ⟨-, rfl⟩, h⟩ := h
      exact loaded_of_loadByToken h
  | createPortalNegotiation =>
      simp only [QuoteEdit.mutation, createPortalNegotiation, bind_eq_ok] at h
      obtain ⟨found, _, hfound, h⟩ := h
      obtain rfl := readOnly_of_ok hfound
      exact hloaded h
  | applyPortalChange => exact loaded_of_loadByToken h
  | voidQuote =>
      simp only [QuoteEdit.mutation, voidQuote, Mutation.saving, bind_eq_ok, throwIf_eq_ok] at h
      obtain ⟨_, _, ⟨-, rfl⟩, h⟩ := h
      exact hloaded h
  | reviseAsManager =>
      simp only [QuoteEdit.mutation, reviseAsManager, Mutation.saving, bind_eq_ok] at h
      obtain ⟨_, _, hguard, h⟩ := h
      obtain rfl := readOnly_of_ok hguard
      exact hloaded h
  | returnRevisedQuote =>
      simp only [QuoteEdit.mutation, returnRevisedQuote, Mutation.saving, bind_eq_ok] at h
      obtain ⟨_, _, hguard, h⟩ := h
      obtain rfl := readOnly_of_ok hguard
      exact hloaded h
  | finalizeQuotation =>
      simp only [QuoteEdit.mutation, finalizeQuotation, Mutation.saving, bind_eq_ok] at h
      obtain ⟨_, _, hguard, h⟩ := h
      obtain rfl := readOnly_of_ok hguard
      exact hloaded h
  | _ => exact hloaded h

/-! ## Saving -/

/-- The record `saveAssessed` stores for an aggregate whose lines have the products `pairs`. -/
def savedRecord (env : Env) (store : Store) (b : QuoteAggregate)
    (pairs : List (QuoteLine × Product)) : QuoteAggregate :=
  stamp env (applyAssessment env.options store b
    (assessQuote (assessmentInput env.options store b.customer.tier pairs)))

/-- The world with a record written to its quotes. -/
def World.withQuote (w : World) (record : QuoteAggregate) : World :=
  { w with store := w.store.setQuote record }

@[simp] theorem core_savedRecord (env : Env) (store : Store) (b : QuoteAggregate)
    (pairs : List (QuoteLine × Product)) : (savedRecord env store b pairs).core = b.core := rfl

theorem saveQuote_eq_ok {record answer : QuoteAggregate} {w w' : World} :
    saveQuote record w = .ok answer w' ↔
      w' = w.withQuote record ∧ w'.store.attach record = .ok answer := by
  unfold saveQuote
  simp only [bind_eq_ok, updateStore_eq_ok, read_eq_ok, lift_eq_ok]
  constructor
  · rintro ⟨_, _, rfl, _, _, ⟨rfl, rfl⟩, hattach, rfl⟩
    exact ⟨rfl, hattach⟩
  · rintro ⟨rfl, hattach⟩
    exact ⟨⟨⟩, _, rfl, _, _, ⟨rfl, rfl⟩, hattach, rfl⟩

/-- The write of a save stands, whatever becomes of its answer. -/
@[simp] theorem after_saveQuote (record : QuoteAggregate) (w : World) :
    after (saveQuote record) w = w.withQuote record := by
  unfold saveQuote
  have hwrite : updateStore (Store.setQuote record) w = .ok ⟨⟩ (w.withQuote record) := rfl
  rw [after_bind_of_ok hwrite, after_bind_of_ok (read_eq_ok.mpr ⟨rfl, rfl⟩), after_lift]

theorem saveAssessed_eq_ok {env : Env} {b answer : QuoteAggregate} {w w' : World} :
    saveAssessed env b w = .ok answer w' ↔
      ∃ pairs, pairProducts w.store b.lines = .ok pairs ∧
        w' = w.withQuote (savedRecord env w.store b pairs) ∧
        w'.store.attach (savedRecord env w.store b pairs) = .ok answer := by
  unfold saveAssessed
  simp only [bind_eq_ok, refreshAssessment_eq_ok, saveQuote_eq_ok]
  constructor
  · rintro ⟨_, _, ⟨pairs, hpairs, rfl, rfl⟩, hsave⟩
    exact ⟨pairs, hpairs, hsave⟩
  · rintro ⟨pairs, hpairs, hsave⟩
    exact ⟨_, _, ⟨pairs, hpairs, rfl, rfl⟩, hsave⟩

/-- A save writes its record unless a line has no product. -/
theorem after_saveAssessed (env : Env) (b : QuoteAggregate) (w : World) :
    (∃ e, pairProducts w.store b.lines = .error e ∧ after (saveAssessed env b) w = w) ∨
      ∃ pairs, pairProducts w.store b.lines = .ok pairs ∧
        after (saveAssessed env b) w = w.withQuote (savedRecord env w.store b pairs) := by
  unfold saveAssessed
  cases hpairs : pairProducts w.store b.lines with
  | error e =>
      have hrefresh : refreshAssessment env.options b w = .error e w := by
        simp only [refreshAssessment, bind_eq_error, read_eq_error, read_eq_ok, lift_eq_error,
          false_or]
        exact ⟨_, _, ⟨rfl, rfl⟩, .inl ⟨hpairs, rfl⟩⟩
      exact .inl ⟨e, rfl, after_of_error (bind_of_error hrefresh)⟩
  | ok pairs =>
      refine .inr ⟨pairs, rfl, ?_⟩
      rw [after_bind_of_ok (refreshAssessment_eq_ok.mpr ⟨pairs, hpairs, rfl, rfl⟩), after_saveQuote]
      rfl

/-- Where a save and the answer after it end: nothing written, or the record and what the answer may
write. -/
theorem after_saveAssessed_bind (env : Env) (b : QuoteAggregate) (w : World)
    (tail : QuoteAggregate → Service QuoteAggregate) (htail : ∀ saved, Keeps TailFrame (tail saved)) :
    (∃ e, pairProducts w.store b.lines = .error e ∧ after (saveAssessed env b >>= tail) w = w) ∨
      ∃ pairs, pairProducts w.store b.lines = .ok pairs ∧
        TailFrame (w.withQuote (savedRecord env w.store b pairs))
          (after (saveAssessed env b >>= tail) w) := by
  rcases after_saveAssessed env b w with ⟨e, hpairs, hsave⟩ | ⟨pairs, hpairs, hsave⟩
  · refine .inl ⟨e, hpairs, ?_⟩
    rcases after_bind (saveAssessed env b) tail w with ⟨answer, w₁, hok, -⟩ | ⟨e', w₁, herr, hend⟩
    · obtain ⟨pairs, hok, -⟩ := saveAssessed_eq_ok.mp hok
      rw [hpairs] at hok
      cases hok
    · rw [hend, ← after_of_error herr, hsave]
  · refine .inr ⟨pairs, hpairs, ?_⟩
    rw [← hsave]
    rcases after_bind (saveAssessed env b) tail w with ⟨answer, w₁, hok, hend⟩ | ⟨e', w₁, herr, hend⟩
    · rw [after_of_ok hok, hend]
      exact (htail answer).keeps w₁
    · rw [after_of_error herr, hend]
      exact Std.Refl.refl w₁

/-! ## Edits -/

/-- How an edit of the loaded copy `a` can end, and in which world. -/
inductive Outcome (env : Env) (op : QuoteEdit) (a : QuoteAggregate) (w w' : World) : Prop
  /-- The edit threw. -/
  | failed {e} (hedit : (op.mutation env).edit a w = .error e w')
  /-- The edit had nothing to save. -/
  | idle {w₁} (hedit : (op.mutation env).edit a w = .ok none w₁) (htail : TailFrame w₁ w')
  /-- The edited copy has a line without a product. -/
  | unpriced {b e} (hedit : (op.mutation env).edit a w = .ok (some b) w')
      (hpairs : pairProducts w'.store b.lines = .error e)
  /-- The edited copy was stored. -/
  | saved {b w₁ pairs} (hedit : (op.mutation env).edit a w = .ok (some b) w₁)
      (hpairs : pairProducts w₁.store b.lines = .ok pairs)
      (htail : TailFrame (w₁.withQuote (savedRecord env w₁.store b pairs)) w')

theorem outcome_of_finish (env : Env) (op : QuoteEdit) (a : QuoteAggregate) (w : World) :
    Outcome env op a w (after ((op.mutation env).finish env a) w) := by
  unfold Mutation.finish
  rcases after_bind ((op.mutation env).edit a) _ w with
    ⟨edited, w₁, hedit, hafter⟩ | ⟨e, w₁, hedit, hafter⟩
  · rw [hafter]
    cases edited with
    | none => exact .idle hedit ((keeps_idle env op a).keeps w₁)
    | some b =>
        rcases after_saveAssessed_bind env b w₁ (op.mutation env).tail (keeps_tail env op) with
          ⟨e, hpairs, hend⟩ | ⟨pairs, hpairs, hend⟩
        · rw [show after _ w₁ = w₁ from hend]
          exact .unpriced hedit hpairs
        · exact .saved hedit hpairs hend
  · rw [hafter]
    exact .failed hedit

/-- An edit that has something to save, of a quote whose customer and products are there, returns. -/
theorem finish_returns {env : Env} {op : QuoteEdit} {a b : QuoteAggregate} {w w₁ : World}
    {pairs : List (QuoteLine × Product)}
    (hedit : (op.mutation env).edit a w = .ok (some b) w₁)
    (hpairs : pairProducts w₁.store b.lines = .ok pairs)
    (hcustomer : (w₁.store.getCustomer b.quote.customerId).isSome) :
    ∃ answer w', (op.mutation env).finish env a w = .ok answer w' := by
  obtain ⟨customer, hcustomer⟩ := Option.isSome_iff_exists.mp hcustomer
  have hattach : ∃ answer, (w₁.withQuote (savedRecord env w₁.store b pairs)).store.attach
      (savedRecord env w₁.store b pairs) = .ok answer :=
    ⟨_, attach_eq_ok.mpr ⟨customer, hcustomer, rfl⟩⟩
  obtain ⟨answer, hattach⟩ := hattach
  have hsave := saveAssessed_eq_ok.mpr ⟨pairs, hpairs, rfl, hattach⟩
  obtain ⟨last, w', htail⟩ := (total_tail env op answer).total _
  refine ⟨last, w', ?_⟩
  unfold Mutation.finish
  rw [bind_of_ok hedit]
  exact (bind_of_ok hsave).trans htail

/-- A request that edits a quote found nothing to edit, or edited a stored quote. -/
theorem outcome_of_run (env : Env) (op : QuoteEdit) (w : World) :
    after ((op.mutation env).run env) w = w ∨
      ∃ q a, (op.mutation env).load w = .ok a w ∧ Loaded w.store q a ∧
        Outcome env op a w (after ((op.mutation env).run env) w) := by
  unfold Mutation.run
  rcases after_bind (op.mutation env).load ((op.mutation env).finish env) w with
    ⟨a, w₁, hload, hafter⟩ | ⟨e, w₁, hload, hafter⟩
  · obtain ⟨rfl, q, hq⟩ := loaded_of_edit hload
    rw [hafter]
    exact .inr ⟨q, a, hload, hq, outcome_of_finish env op a w₁⟩
  · rw [hafter]
    exact .inl (Keeps.of_error hload : w = w₁).symm

/-- A served edit loaded its quote and edited it. -/
theorem edit_of_succeeds {options : Options} {w : World} {request : Request} {op : QuoteEdit}
    (hop : request.operation = .edit op) (hok : succeeds options w request = true) :
    ∃ a edited w₁, (op.mutation (request.env options)).load w = .ok a w ∧
      (op.mutation (request.env options)).edit a w = .ok edited w₁ := by
  unfold succeeds at hok
  split at hok
  · rename_i u w' hrun
    unfold Request.program at hrun
    rw [hop] at hrun
    simp only [Operation.program, Mutation.run, Mutation.finish, bind_eq_ok] at hrun
    obtain ⟨answer, _, ⟨a, w₀, hload, edited, w₁, hedit, -⟩, -⟩ := hrun
    obtain ⟨rfl, -⟩ := loaded_of_edit hload
    exact ⟨a, edited, w₁, hload, hedit⟩
  · cases hok

/-- A served edit that had something to save stored it. -/
theorem saved_of_succeeds {options : Options} {w : World} {request : Request} {op : QuoteEdit}
    (hop : request.operation = .edit op) (hok : succeeds options w request = true) :
    ∃ q a, (op.mutation (request.env options)).load w = .ok a w ∧ Loaded w.store q a ∧
      ((∃ w₁, (op.mutation (request.env options)).edit a w = .ok none w₁) ∨
        ∃ b w₁ pairs, (op.mutation (request.env options)).edit a w = .ok (some b) w₁ ∧
          pairProducts w₁.store b.lines = .ok pairs ∧
          TailFrame (w₁.withQuote (savedRecord (request.env options) w₁.store b pairs))
            (serve options w request)) := by
  unfold succeeds at hok
  split at hok
  · rename_i u w' hrun
    have hserve : serve options w request = w' := after_of_ok hrun
    unfold Request.program at hrun
    rw [hop] at hrun
    simp only [Operation.program, Mutation.run, Mutation.finish, bind_eq_ok, pure_eq_ok] at hrun
    obtain ⟨answer, _, ⟨a, w₀, hload, edited, w₁, hedit, hfinish⟩, -, rfl⟩ := hrun
    obtain ⟨rfl, q, hq⟩ := loaded_of_edit hload
    refine ⟨q, a, hload, hq, ?_⟩
    cases edited with
    | none => exact .inl ⟨w₁, hedit⟩
    | some b =>
        simp only [bind_eq_ok] at hfinish
        obtain ⟨saved, _, hsaved, htail⟩ := hfinish
        obtain ⟨pairs, hpairs, rfl, -⟩ := saveAssessed_eq_ok.mp hsaved
        rw [hserve]
        exact .inr ⟨b, w₁, pairs, hedit, hpairs, (keeps_tail _ op saved).of_ok htail⟩
  · cases hok

/-- An edit that loads its quote and stores its copy is served. -/
theorem succeeds_of_saved {options : Options} {w w₁ : World} {request : Request} {op : QuoteEdit}
    {q a b : QuoteAggregate} {pairs : List (QuoteLine × Product)}
    (hop : request.operation = .edit op)
    (hload : (op.mutation (request.env options)).load w = .ok a w) (hq : Loaded w.store q a)
    (hedit : (op.mutation (request.env options)).edit a w = .ok (some b) w₁)
    (hpairs : pairProducts w₁.store b.lines = .ok pairs) : succeeds options w request = true := by
  have hframe : EditFrame w w₁ := (keeps_edit _ op a).of_ok hedit
  have hcustomer : (w₁.store.getCustomer b.quote.customerId).isSome := by
    have hid : b.quote.customerId = q.quote.customerId := by
      rw [← hq.quote]
      exact congrArg (·.2.1) (change_of_edit op hedit).identity
    rw [hid, hframe.store]
    exact Option.isSome_iff_exists.mpr ⟨_, hq.customer⟩
  obtain ⟨answer, w', hfinish⟩ := finish_returns hedit hpairs hcustomer
  have hrun : request.program options w = .ok ⟨⟩ w' := by
    unfold Request.program
    rw [hop]
    show (Mutation.run _ _ >>= fun _ => pure PUnit.unit) w = _
    rw [Mutation.run, bind_of_ok ((bind_of_ok hload).trans hfinish)]
    rfl
  rw [succeeds, hrun]

/-! ## Every request -/

/-- What a request does to the quotes. -/
inductive Effect (options : Options) (w w' : World) (request : Request) : Prop
  | kept (hquotes : w'.store.quotes = w.store.quotes) (hnext : w.nextUuid ≤ w'.nextUuid)
  | edited {op q a b w₁ pairs} (hop : request.operation = .edit op)
      (hload : (op.mutation (request.env options)).load w = .ok a w) (hq : Loaded w.store q a)
      (hedit : (op.mutation (request.env options)).edit a w = .ok (some b) w₁)
      (hpairs : pairProducts w₁.store b.lines = .ok pairs)
      (htail : TailFrame
        (w₁.withQuote (savedRecord (request.env options) w₁.store b pairs)) w')
      (hquotes : w'.store.quotes = Table.upsert QuoteAggregate.id
        (savedRecord (request.env options) w₁.store b pairs) w.store.quotes)
  | created {customerId ownerId inputs actor b w₁ pairs}
      (hop : request.operation = .createQuote customerId ownerId inputs actor)
      (hdraft : draftQuote (request.env options) customerId ownerId inputs actor w = .ok b w₁)
      (hpairs : pairProducts w₁.store b.lines = .ok pairs)
      (htail : TailFrame
        (w₁.withQuote (savedRecord (request.env options) w₁.store b pairs)) w')
      (hquotes : w'.store.quotes = Table.upsert QuoteAggregate.id
        (savedRecord (request.env options) w₁.store b pairs) w.store.quotes)
  | assessed {quoteId q a pairs} (hop : request.operation = .assess quoteId)
      (hq : Loaded w.store q a) (hid : q.id = quoteId)
      (hpairs : pairProducts w.store a.lines = .ok pairs)
      (htail : TailFrame
        (w.withQuote (applyAssessment options w.store a
          (assessQuote (assessmentInput options w.store a.customer.tier pairs)))) w')
      (hquotes : w'.store.quotes = Table.upsert QuoteAggregate.id
        (applyAssessment options w.store a
          (assessQuote (assessmentInput options w.store a.customer.tier pairs))) w.store.quotes)
  | deleted {quoteId actor version q a}
      (hop : request.operation = .deleteQuote quoteId actor version) (hq : Loaded w.store q a)
      (hid : q.id = quoteId)
      (hunlocked : isCommerciallyLocked a.quote.status a.quote.financeLockedAt = false)
      (hstatus : canDeleteQuote a.quote.status = true)
      (hworld : w' = { w with store := w.store.deleteQuote quoteId })

theorem quotes_of_saved {w w₁ w' : World} {record : QuoteAggregate} (hedit : EditFrame w w₁)
    (htail : TailFrame (w₁.withQuote record) w') :
    w'.store.quotes = Table.upsert QuoteAggregate.id record w.store.quotes := by
  rw [htail.quotesKept.quotes]
  show Table.upsert _ _ w₁.store.quotes = _
  rw [hedit.store]

theorem outcome_of_serve {options : Options} {w : World} {request : Request} {op : QuoteEdit}
    (hop : request.operation = .edit op) :
    serve options w request = w ∨
      ∃ q a, (op.mutation (request.env options)).load w = .ok a w ∧ Loaded w.store q a ∧
        Outcome (request.env options) op a w (serve options w request) := by
  have hserve : serve options w request
      = after ((op.mutation (request.env options)).run (request.env options)) w := by
    unfold serve Request.program
    rw [hop]
    exact after_map _ _ w
  rw [hserve]
  exact outcome_of_run (request.env options) op w

theorem effect_of_edit {options : Options} {w : World} {request : Request} {op : QuoteEdit}
    (hop : request.operation = .edit op) :
    Effect options w (serve options w request) request := by
  rcases outcome_of_serve hop with hworld | ⟨q, a, hload, hq, houtcome⟩
  · exact .kept (by rw [hworld]) (by rw [hworld])
  · cases houtcome with
    | failed hedit =>
        have hframe : EditFrame w _ := (keeps_edit _ op _).of_error hedit
        exact .kept (by rw [hframe.store]) hframe.nextUuid
    | idle hedit htail =>
        have hframe : EditFrame w _ := (keeps_edit _ op _).of_ok hedit
        exact .kept (by rw [htail.quotesKept.quotes, hframe.store])
          (hframe.nextUuid.trans htail.nextUuid)
    | unpriced hedit hpairs =>
        have hframe : EditFrame w _ := (keeps_edit _ op _).of_ok hedit
        exact .kept (by rw [hframe.store]) hframe.nextUuid
    | saved hedit hpairs htail =>
        exact .edited hop hload hq hedit hpairs htail
          (quotes_of_saved ((keeps_edit _ op _).of_ok hedit) htail)

theorem effect_of_create {options : Options} {w : World} {request : Request} {customerId : Id}
    {ownerId : Option String} {inputs : List LineInput} {actor : Actor}
    (hop : request.operation = .createQuote customerId ownerId inputs actor) :
    Effect options w (serve options w request) request := by
  have hserve : serve options w request
      = after (createQuote (request.env options) customerId ownerId inputs actor) w := by
    unfold serve Request.program
    rw [hop]
    exact after_map _ _ w
  rw [hserve, createQuote]
  rcases after_bind (draftQuote (request.env options) customerId ownerId inputs actor) _ w with
    ⟨b, w₁, hdraft, hafter⟩ | ⟨e, w₁, hdraft, hafter⟩
  · have hquiet : QuietFrame w w₁ := Keeps.of_ok hdraft
    rw [hafter]
    rcases after_saveAssessed_bind (request.env options) b w₁ (decorate (request.env options))
      inferInstance with ⟨e, hpairs, hend⟩ | ⟨pairs, hpairs, hend⟩
    · exact .kept (by rw [hend, hquiet.quotesKept.quotes]) (by rw [hend]; exact hquiet.nextUuid)
    · exact .created hop hdraft hpairs hend (quotes_of_saved hquiet.edit hend)
  · have hquiet : QuietFrame w w₁ := Keeps.of_error hdraft
    exact .kept (by rw [hafter, hquiet.quotesKept.quotes]) (by rw [hafter]; exact hquiet.nextUuid)

/-- `assess` stores the assessed quote unless a line has no product. -/
theorem after_assess (env : Env) (a : QuoteAggregate) (w : World) :
    let rest : Service QuoteAggregate := do
      let refreshed ← refreshAssessment env.options a
      let _ ← saveQuote refreshed.1
      decorate env refreshed.1
    after rest w = w ∨ ∃ pairs, pairProducts w.store a.lines = .ok pairs ∧
      TailFrame (w.withQuote (applyAssessment env.options w.store a
        (assessQuote (assessmentInput env.options w.store a.customer.tier pairs)))) (after rest w) := by
  intro rest
  rcases after_bind (refreshAssessment env.options a) (fun refreshed => do
      let _ ← saveQuote refreshed.1
      decorate env refreshed.1) w with ⟨refreshed, w₁, hrefresh, hend⟩ | ⟨e, w₁, hrefresh, hend⟩
  · obtain ⟨pairs, hpairs, hrefreshed, hworld⟩ := refreshAssessment_eq_ok.mp hrefresh
    subst hworld
    refine .inr ⟨pairs, hpairs, ?_⟩
    rw [show after rest w = _ from hend, ← hrefreshed, ← after_saveQuote]
    rcases after_bind (saveQuote (applyAssessment env.options w.store a
        (assessQuote (assessmentInput env.options w.store a.customer.tier pairs))))
        (fun _ => decorate env (applyAssessment env.options w.store a
          (assessQuote (assessmentInput env.options w.store a.customer.tier pairs)))) w with
      ⟨answer, w₂, hok, hlast⟩ | ⟨e, w₂, herr, hlast⟩
    · rw [hlast, after_of_ok hok]
      exact Keeps.keeps w₂
    · rw [hlast, after_of_error herr]
      exact Std.Refl.refl w₂
  · have hworld : w = w₁ := Keeps.of_error hrefresh
    exact .inl (by rw [show after rest w = _ from hend, hworld])

theorem effect_of_assess {options : Options} {w : World} {request : Request} {quoteId : Id}
    (hop : request.operation = .assess quoteId) :
    Effect options w (serve options w request) request := by
  have hserve : serve options w request = after (assess (request.env options) quoteId) w := by
    unfold serve Request.program
    rw [hop]
    exact after_map _ _ w
  rw [hserve, assess]
  rcases after_bind (load quoteId) _ w with ⟨a, w₁, hload, hafter⟩ | ⟨e, w₁, hload, hafter⟩
  · have hworld : w₁ = w := readOnly_of_ok hload
    obtain ⟨q, hq, hid⟩ := loaded_of_load hload
    rw [hafter, hworld]
    rcases after_assess (request.env options) a w with hend | ⟨pairs, hpairs, hend⟩
    · exact .kept (by rw [hend]) (by rw [hend])
    · exact .assessed hop hq hid hpairs hend (quotes_of_saved (Std.Refl.refl w) hend)
  · have hworld : w = w₁ := Keeps.of_error hload
    exact .kept (by rw [hafter, hworld]) (by rw [hafter, hworld])

theorem assertDeletable_eq_ok {quoteId : Id} {actor : Actor} {version : ℕ} {w w' : World} {u : PUnit}
    (h : assertDeletable quoteId actor version w = .ok u w') :
    w' = w ∧ ∃ q a, Loaded w.store q a ∧ q.id = quoteId ∧
      isCommerciallyLocked a.quote.status a.quote.financeLockedAt = false ∧
      canDeleteQuote a.quote.status = true := by
  unfold assertDeletable at h
  simp only [bind_eq_ok, throwIf_eq_ok, assertExpectedVersion_eq_ok] at h
  obtain ⟨_, _, ⟨-, rfl⟩, a, w₁, hload, _, _, ⟨-, rfl⟩, _, _, ⟨hunlocked, rfl⟩, hstatus, rfl⟩ := h
  obtain ⟨q, hq, hid⟩ := loaded_of_load hload
  exact ⟨readOnly_of_ok hload, q, a, hq, hid, Bool.eq_false_iff.mpr hunlocked, not_not.mp hstatus⟩

theorem effect_of_delete {options : Options} {w : World} {request : Request} {quoteId : Id}
    {actor : Actor} {version : ℕ} (hop : request.operation = .deleteQuote quoteId actor version) :
    Effect options w (serve options w request) request := by
  have hserve : serve options w request = after (deleteQuote quoteId actor version) w := by
    unfold serve Request.program
    rw [hop]
    rfl
  have hreads : Keeps (· = ·) (assertDeletable quoteId actor version) := by
    unfold assertDeletable
    dsimp only
    infer_instance
  rw [hserve, deleteQuote]
  rcases after_bind (assertDeletable quoteId actor version)
      (fun _ => updateStore (Store.deleteQuote quoteId)) w with
    ⟨u, w₁, hcheck, hafter⟩ | ⟨e, w₁, hcheck, hafter⟩
  · obtain ⟨rfl, q, a, hq, hid, hunlocked, hstatus⟩ := assertDeletable_eq_ok hcheck
    rw [hafter]
    exact .deleted hop hq hid hunlocked hstatus rfl
  · have hworld : w = w₁ := Keeps.of_error hcheck
    exact .kept (by rw [hafter, hworld]) (by rw [hafter, hworld])

theorem effect_of_catalog {options : Options} {w : World} {request : Request} {op : CatalogEdit}
    (hop : request.operation = .catalog op) :
    Effect options w (serve options w request) request := by
  have hserve : serve options w request = after (op.program (request.env options)) w := by
    unfold serve Request.program
    rw [hop]
    rfl
  rw [hserve]
  have hkept := (keeps_catalog (request.env options) op).keeps w
  exact .kept hkept.quotes hkept.nextUuid

theorem effect_of_view {options : Options} {w : World} {request : Request} {op : QuoteRead}
    (hop : request.operation = .view op) :
    Effect options w (serve options w request) request := by
  have hserve : serve options w request = after (op.program (request.env options)) w := by
    unfold serve Request.program
    rw [hop]
    rfl
  rw [hserve]
  have hkept := ((keeps_view (request.env options) op).keeps w).quotesKept
  exact .kept hkept.quotes hkept.nextUuid

/-- Every request does one of these things to the quotes. -/
theorem effect_of_serve (options : Options) (w : World) (request : Request) :
    Effect options w (serve options w request) request := by
  cases hop : request.operation with
  | edit op => exact effect_of_edit hop
  | createQuote => exact effect_of_create hop
  | deleteQuote => exact effect_of_delete hop
  | assess => exact effect_of_assess hop
  | catalog op => exact effect_of_catalog hop
  | view op => exact effect_of_view hop

end DealFlow360
