import DealFlow360.Outcome

/-!
# One quote across a request

`Effect` speaks about the table of quotes; here it is read off for a single
row. A quote that is stored before a request is stored after it, as the request
left it, unless it was deleted; a quote stored after it was stored before or
was created by it. Invariants of single quotes that depend on the core alone
then need one proof for each kind of edit.

Two directions: `serve_quote` goes from a stored quote to what the request left
of it, `quote_of_serve` from a stored quote afterwards to where it came from.
With distinct ids they are one relation, `QuoteStep` (`step_of_same_id`). The
invariant rule at the end turns a proof for every kind of change into one for
all quotes of all runs.
-/

namespace DealFlow360

open Program

/-- The quotes have distinct ids, all taken from the supply. -/
structure World.Indexed (w : World) : Prop where
  distinct : Table.Distinct QuoteAggregate.id w.store.quotes
  fresh : ∀ q ∈ w.store.quotes, q.id < w.nextUuid

theorem World.Fresh.indexed {w : World} (h : w.Fresh) : w.Indexed where
  distinct := by
    rw [h.quotes]
    exact List.nodup_nil
  fresh := by
    rw [h.quotes]
    exact fun q hq => absurd hq List.not_mem_nil

/-- The stored quote `q'` is what a request made of the stored quote `q`. -/
inductive QuoteStep (options : Options) (w : World) (request : Request) (q : QuoteAggregate) :
    QuoteAggregate → Prop
  | untouched : QuoteStep options w request q q
  | edited {op a b w₁ pairs} (hop : request.operation = .edit op)
      (hload : (op.mutation (request.env options)).load w = .ok a w) (hq : Loaded w.store q a)
      (hedit : (op.mutation (request.env options)).edit a w = .ok (some b) w₁)
      (hframe : EditFrame w w₁) (hchange : Change (request.env options) w w₁ a b op)
      (hpairs : pairProducts w₁.store b.lines = .ok pairs)
      (hnext : w₁.nextUuid ≤ (serve options w request).nextUuid) :
      QuoteStep options w request q (savedRecord (request.env options) w₁.store b pairs)
  | assessed {quoteId a pairs} (hop : request.operation = .assess quoteId)
      (hq : Loaded w.store q a) (hid : q.id = quoteId)
      (hpairs : pairProducts w.store a.lines = .ok pairs) :
      QuoteStep options w request q (applyAssessment options w.store a
        (assessQuote (assessmentInput options w.store a.customer.tier pairs)))

/-- The stored quote `q'` was created by the request. -/
inductive Created (options : Options) (w : World) (request : Request) : QuoteAggregate → Prop
  | intro {customerId ownerId inputs actor b w₁ pairs}
      (hop : request.operation = .createQuote customerId ownerId inputs actor)
      (hframe : QuietFrame w w₁) (hdraft : Drafted customerId inputs w w₁ b)
      (hpairs : pairProducts w₁.store b.lines = .ok pairs)
      (hnext : w₁.nextUuid ≤ (serve options w request).nextUuid) :
      Created options w request (savedRecord (request.env options) w₁.store b pairs)

variable {options : Options} {w : World} {request : Request} {q q' : QuoteAggregate}

theorem QuoteStep.identity (h : QuoteStep options w request q q') : q'.identity = q.identity := by
  cases h with
  | untouched => rfl
  | edited hop hload hq hedit hframe hchange hpairs hnext =>
      exact hchange.identity.trans (eq_of_core QuoteAggregate.identity hq.core (fun _ => rfl))
  | assessed hop hq hid hpairs => exact eq_of_core QuoteAggregate.identity hq.core (fun _ => rfl)

theorem QuoteStep.id (h : QuoteStep options w request q q') : q'.id = q.id :=
  congrArg (·.1) h.identity

theorem Created.id (h : Created options w request q) : q.id = w.nextUuid := by
  obtain ⟨-, -, hdraft, -, -⟩ := h
  exact hdraft.id

theorem World.Indexed.eq_of_id (hw : w.Indexed) (hq : q ∈ w.store.quotes)
    (hq' : q' ∈ w.store.quotes) (h : q.id = q'.id) : q = q' := by
  have hlookup := Table.lookup_of_mem hw.distinct hq
  rw [h, Table.lookup_of_mem hw.distinct hq'] at hlookup
  exact (Option.some.inj hlookup).symm

/-! ## From before to after -/

/-- A stored quote is stored after the request too, as the request left it, or was deleted as an
unlocked draft or rejected quote. -/
theorem serve_quote (hw : w.Indexed) (hq : q ∈ w.store.quotes) :
    (∃ q' ∈ (serve options w request).store.quotes, QuoteStep options w request q q') ∨
      isCommerciallyLocked q.quote.status q.quote.financeLockedAt = false ∧
        canDeleteQuote q.quote.status = true := by
  cases effect_of_serve options w request with
  | kept hquotes hnext =>
      left
      rw [hquotes]
      exact ⟨q, hq, .untouched⟩
  | @edited op q₀ a b w₁ pairs hop hload hq₀ hedit hpairs htail hquotes =>
      left
      rw [hquotes]
      have hchange := change_of_edit op hedit
      have hstep : QuoteStep options w request q₀ _ :=
        .edited hop hload hq₀ hedit ((keeps_edit _ op a).of_ok hedit) hchange hpairs htail.nextUuid
      by_cases hid : q.id = q₀.id
      · obtain rfl := hw.eq_of_id hq hq₀.mem hid
        exact ⟨_, Table.mem_upsert_self _ _, hstep⟩
      · refine ⟨q, Table.mem_upsert_of_ne hq ?_, .untouched⟩
        rw [hstep.id]
        exact hid
  | created hop hdraft hpairs htail hquotes =>
      left
      rw [hquotes]
      refine ⟨q, Table.mem_upsert_of_ne hq ?_, .untouched⟩
      have hid := (draftQuote_eq_ok hdraft).id
      exact fun heq => Nat.ne_of_lt (hw.fresh q hq) (heq.trans hid)
  | @assessed quoteId q₀ a pairs hop hq₀ hloaded hpairs htail hquotes =>
      left
      rw [hquotes]
      have hstep : QuoteStep options w request q₀ _ := .assessed hop hq₀ hloaded hpairs
      by_cases hid : q.id = q₀.id
      · obtain rfl := hw.eq_of_id hq hq₀.mem hid
        exact ⟨_, Table.mem_upsert_self _ _, hstep⟩
      · refine ⟨q, Table.mem_upsert_of_ne hq ?_, .untouched⟩
        rw [hstep.id]
        exact hid
  | @deleted quoteId actor version q₀ a hop hq₀ hid hunlocked hstatus hworld =>
      by_cases heq : q.id = quoteId
      · right
        obtain rfl := hw.eq_of_id hq hq₀.mem (heq.trans hid.symm)
        rw [hq₀.quote] at hunlocked hstatus
        exact ⟨hunlocked, hstatus⟩
      · left
        rw [hworld]
        exact ⟨q, Table.mem_erase.mpr ⟨hq, heq⟩, .untouched⟩

/-! ## From after to before -/

/-- A quote stored after a request was stored before it or is the draft it made. -/
theorem draft_of_serve (hq' : q' ∈ (serve options w request).store.quotes) :
    (∃ q ∈ w.store.quotes, QuoteStep options w request q q') ∨
      ∃ customerId ownerId inputs actor b w₁ pairs,
        request.operation = .createQuote customerId ownerId inputs actor ∧
        draftQuote (request.env options) customerId ownerId inputs actor w = .ok b w₁ ∧
        pairProducts w₁.store b.lines = .ok pairs ∧
        w₁.nextUuid ≤ (serve options w request).nextUuid ∧
        q' = savedRecord (request.env options) w₁.store b pairs := by
  cases effect_of_serve options w request with
  | kept hquotes hnext =>
      rw [hquotes] at hq'
      exact .inl ⟨q', hq', .untouched⟩
  | @edited op q₀ a b w₁ pairs hop hload hq₀ hedit hpairs htail hquotes =>
      rw [hquotes] at hq'
      rcases Table.mem_upsert hq' with rfl | hq'
      · exact .inl ⟨q₀, hq₀.mem, .edited hop hload hq₀ hedit
          ((keeps_edit _ op a).of_ok hedit) (change_of_edit op hedit) hpairs htail.nextUuid⟩
      · exact .inl ⟨q', hq', .untouched⟩
  | created hop hdraft hpairs htail hquotes =>
      rw [hquotes] at hq'
      rcases Table.mem_upsert hq' with rfl | hq'
      · exact .inr ⟨_, _, _, _, _, _, _, hop, hdraft, hpairs, htail.nextUuid, rfl⟩
      · exact .inl ⟨q', hq', .untouched⟩
  | @assessed quoteId q₀ a pairs hop hq₀ hloaded hpairs htail hquotes =>
      rw [hquotes] at hq'
      rcases Table.mem_upsert hq' with rfl | hq'
      · exact .inl ⟨q₀, hq₀.mem, .assessed hop hq₀ hloaded hpairs⟩
      · exact .inl ⟨q', hq', .untouched⟩
  | deleted hop hq₀ hid hunlocked hstatus hworld =>
      rw [hworld] at hq'
      exact .inl ⟨q', (Table.mem_erase.mp hq').1, .untouched⟩

/-- A quote stored after a request was stored before it or was created by it. -/
theorem quote_of_serve (hq' : q' ∈ (serve options w request).store.quotes) :
    (∃ q ∈ w.store.quotes, QuoteStep options w request q q') ∨ Created options w request q' := by
  rcases draft_of_serve hq' with
    hstep | ⟨customerId, ownerId, inputs, actor, b, w₁, pairs, hop, hdraft, hpairs, hnext, rfl⟩
  · exact .inl hstep
  · exact .inr ⟨hop, Keeps.of_ok hdraft, draftQuote_eq_ok hdraft, hpairs, hnext⟩

theorem serve_nextUuid (options : Options) (w : World) (request : Request) :
    w.nextUuid ≤ (serve options w request).nextUuid := by
  cases effect_of_serve options w request with
  | kept hquotes hnext => exact hnext
  | @edited op q₀ a b w₁ pairs hop hload hq₀ hedit hpairs htail hquotes =>
      have hframe : EditFrame w w₁ := (keeps_edit _ op a).of_ok hedit
      exact hframe.nextUuid.trans htail.nextUuid
  | created hop hdraft hpairs htail hquotes =>
      have hframe : QuietFrame w _ := Keeps.of_ok hdraft
      exact hframe.nextUuid.trans htail.nextUuid
  | assessed hop hq₀ hid hpairs htail hquotes => exact htail.nextUuid
  | deleted hop hq₀ hid hunlocked hstatus hworld => rw [hworld]

/-! ## Runs -/

theorem World.Indexed.serve (hw : w.Indexed) (options : Options) (request : Request) :
    (serve options w request).Indexed where
  distinct := by
    cases effect_of_serve options w request with
    | kept hquotes hnext =>
        rw [hquotes]
        exact hw.distinct
    | edited hop hload hq hedit hpairs htail hquotes =>
        rw [hquotes]
        exact Table.distinct_upsert hw.distinct _
    | created hop hdraft hpairs htail hquotes =>
        rw [hquotes]
        exact Table.distinct_upsert hw.distinct _
    | assessed hop hq hid hpairs htail hquotes =>
        rw [hquotes]
        exact Table.distinct_upsert hw.distinct _
    | deleted hop hq hid hunlocked hstatus hworld =>
        rw [hworld]
        exact Table.distinct_erase hw.distinct _
  fresh q' hq' := by
    have hnext := serve_nextUuid options w request
    rcases quote_of_serve hq' with ⟨q, hq, hstep⟩ | hcreated
    · rw [hstep.id]
      exact (hw.fresh q hq).trans_le hnext
    · rw [hcreated.id]
      obtain ⟨-, -, hdraft, -, hlast⟩ := hcreated
      exact hdraft.next.trans_le hlast

theorem World.Indexed.serveAll (hw : w.Indexed) (options : Options) (requests : List Request) :
    (serveAll options w requests).Indexed :=
  Machine.invariant (fun _ request h => h.serve options request) hw requests

/-- With distinct ids, the quote of an id after the request is what the request made of the quote of
that id before it. -/
theorem step_of_same_id (hw : w.Indexed) (hq : q ∈ w.store.quotes)
    (hq' : q' ∈ (serve options w request).store.quotes) (hid : q'.id = q.id) :
    QuoteStep options w request q q' := by
  rcases quote_of_serve hq' with ⟨q₀, hq₀, hstep⟩ | hcreated
  · obtain rfl := hw.eq_of_id hq₀ hq (hstep.id.symm.trans hid)
    exact hstep
  · exact absurd (hid.symm.trans hcreated.id) (Nat.ne_of_lt (hw.fresh q hq))

/-- A property of single quotes, up to the ids handed out so far, that drafts have and every kind of
edit keeps. -/
structure QuoteInvariant (P : ℕ → QuoteAggregate → Prop) : Prop where
  core : ∀ {n a b}, a.core = b.core → P n a → P n b
  mono : ∀ {n m q}, n ≤ m → P n q → P m q
  draft : ∀ {customerId inputs w w₁ b}, Drafted customerId inputs w w₁ b → P w₁.nextUuid b
  change : ∀ {env w w₁ a b op}, EditFrame w w₁ → Change env w w₁ a b op → P w.nextUuid a →
    P w₁.nextUuid b

namespace QuoteInvariant

variable {P : ℕ → QuoteAggregate → Prop}

theorem serve (h : QuoteInvariant P) (hw : ∀ q ∈ w.store.quotes, P w.nextUuid q) :
    ∀ q ∈ (DealFlow360.serve options w request).store.quotes,
      P (DealFlow360.serve options w request).nextUuid q := by
  intro q' hq'
  rcases quote_of_serve hq' with ⟨q, hq, hstep⟩ | hcreated
  · cases hstep with
    | untouched => exact h.mono (serve_nextUuid options w request) (hw _ hq)
    | edited hop hload hloaded hedit hframe hchange hpairs hnext =>
        have hbefore := h.core hloaded.core.symm (hw q hq)
        exact h.mono hnext (h.core (core_savedRecord ..).symm (h.change hframe hchange hbefore))
    | assessed hop hloaded hid hpairs =>
        have hbefore := h.core hloaded.core.symm (hw q hq)
        exact h.mono (serve_nextUuid options w request)
          (h.core (core_of_body (body_applyAssessment ..)).symm hbefore)
  · obtain ⟨-, -, hdraft, -, hnext⟩ := hcreated
    exact h.mono hnext (h.core (core_savedRecord ..).symm (h.draft hdraft))

theorem serveAll (h : QuoteInvariant P) (hw : ∀ q ∈ w.store.quotes, P w.nextUuid q)
    (requests : List Request) :
    ∀ q ∈ (DealFlow360.serveAll options w requests).store.quotes,
      P (DealFlow360.serveAll options w requests).nextUuid q := by
  have hstep (w : World) (request : Request) (hw : ∀ q ∈ w.store.quotes, P w.nextUuid q) :
      ∀ q ∈ (DealFlow360.serve options w request).store.quotes,
        P (DealFlow360.serve options w request).nextUuid q := h.serve hw
  exact Machine.invariant hstep hw requests

theorem of_fresh (h : QuoteInvariant P) (hw : w.Fresh) (requests : List Request) :
    ∀ q ∈ (DealFlow360.serveAll options w requests).store.quotes,
      P (DealFlow360.serveAll options w requests).nextUuid q := by
  refine h.serveAll ?_ requests
  rw [hw.quotes]
  exact fun q hq => absurd hq List.not_mem_nil

end QuoteInvariant

end DealFlow360
