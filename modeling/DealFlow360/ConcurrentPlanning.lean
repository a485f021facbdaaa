import DealFlow360.StockLedger

/-!
# Planning calls side by side

A planning call loads its quote, lists the stock, writes the whole stock table
back and saves its quote: four store steps, between which other calls take
theirs. The steps of a call taken in a row are the operation
(`PlanCall.run_planQuote`); taken between others they keep the books as long as
the stock a call writes over is the stock it listed, and a call plans with
quantities that are counted in one unit.

`PlanCall` is a call with what it holds in its hands, `PlanningState` the world
with all calls, and a schedule says whose step is next. `advanced` lists what a
step can be. `Books` is the invariant: what the rows are reserved for is what
was reserved before, what the quotes hold, and what calls have written and not
yet saved. Each step keeps it (`Books.step`), and once nothing is unsaved it
says that the rows are reserved for what is held (`planning_never_oversells`).
-/

namespace DealFlow360

open Doubles Ledger Program

/-! ## The steps of a call -/

/-- Where a planning call stands, with what it holds in its hands. -/
inductive PlanStage where
  | waiting
  | loaded (aggregate : QuoteAggregate)
  | drawn (aggregate : QuoteAggregate) (listed : List StockLevel) (plan : FulfillmentPlan)
      (reserved : List StockLevel)
  | written (aggregate : QuoteAggregate) (plan : FulfillmentPlan)
  | ended

namespace PlanStage

def isWritten : PlanStage → Bool
  | written .. => true
  | _ => false

def isEnded : PlanStage → Bool
  | ended => true
  | _ => false

end PlanStage

structure PlanCall where
  quoteId : Id
  overrides : List FulfillmentOverride := []
  expectedVersion : ℕ
  outside : Outside := {}
  stage : PlanStage := .waiting

namespace PlanCall

def env (options : Options) (call : PlanCall) : Env where
  options := options
  outside := call.outside

/-- `getQuote` and the checks of the loaded copy. -/
def getQuote (call : PlanCall) : Service QuoteAggregate := do
  let aggregate ← load call.quoteId
  let status := aggregate.quote.status
  assertExpectedVersion aggregate call.expectedVersion
  throwIf (¬ isOpenForPlanning status)
    (conflict s!"Fulfillment cannot be planned while status is {status.text}")
  return aggregate

/-- `listStock` and the plan drawn against it. -/
def listStock (options : Options) (call : PlanCall) (aggregate : QuoteAggregate) :
    Service (List StockLevel × FulfillmentPlan × List StockLevel) := do
  let store ← read (·.store)
  let uuid ← randomUUIDs (planIds store aggregate call.overrides)
  let planned ← lift (planAndReserve
    (planInput (call.env options) store uuid aggregate call.overrides) aggregate.allocations)
  return (store.stock, planned)

def replaceStock (reserved : List StockLevel) : Service PUnit :=
  updateStore (Store.replaceStock reserved)

/-- `saveQuote` with the assessment before it. -/
def saveQuote (options : Options) (call : PlanCall) (aggregate : QuoteAggregate)
    (plan : FulfillmentPlan) : Service QuoteAggregate :=
  saveAssessed (call.env options) (bumpVersion (adoptPlan aggregate plan))

/-- A call alone: its steps in a row are `planFulfillment`. -/
theorem run_planQuote (options : Options) (call : PlanCall) :
    (planQuote (call.env options) call.quoteId call.overrides call.expectedVersion).run
        (call.env options)
      = (do
          let aggregate ← call.getQuote
          let planned ← call.listStock options aggregate
          replaceStock planned.2.2
          let saved ← call.saveQuote options aggregate planned.2.1
          decorate (call.env options) saved) := by
  simp only [Mutation.run, Mutation.finish, planQuote, Mutation.saving, getQuote, listStock,
    replaceStock, saveQuote, bind_assoc, map_eq_pure_bind, pure_bind]

/-- The next step of a call; a step that fails ends it. -/
def advance (options : Options) (call : PlanCall) (w : World) : PlanStage × World :=
  match call.stage with
  | .waiting =>
      match call.getQuote w with
      | .ok aggregate w' => (.loaded aggregate, w')
      | .error _ w' => (.ended, w')
  | .loaded aggregate =>
      match call.listStock options aggregate w with
      | .ok (listed, plan, reserved) w' => (.drawn aggregate listed plan reserved, w')
      | .error _ w' => (.ended, w')
  | .drawn aggregate _ plan reserved =>
      (.written aggregate plan, after (replaceStock reserved) w)
  | .written aggregate plan => (.ended, after (call.saveQuote options aggregate plan) w)
  | .ended => (.ended, w)

/-- What a call has reserved and not yet saved with its quote. -/
def pending (call : PlanCall) (key : StockKey) : Num :=
  match call.stage with
  | .written aggregate plan => heldBy aggregate.lines plan.allocations key
  | _ => 0

/-- The stock a call is about to write over, as it listed it. -/
def listed (call : PlanCall) : Option (List StockLevel) :=
  match call.stage with
  | .drawn _ listed _ _ => some listed
  | _ => none

/-- The loaded quote a call is about to plan for. -/
def planning (call : PlanCall) : Option QuoteAggregate :=
  match call.stage with
  | .loaded aggregate => some aggregate
  | _ => none

/-- The call is not between its write of the stock and its save. -/
abbrev Settled (call : PlanCall) : Prop := call.stage.isWritten = false

end PlanCall

structure PlanningState where
  world : World
  calls : List PlanCall

namespace PlanningState

/-- The call for a quote takes its next step. -/
def step (options : Options) (s : PlanningState) (quoteId : Id) : PlanningState :=
  match Table.lookup PlanCall.quoteId quoteId s.calls with
  | none => s
  | some call =>
      let next := call.advance options s.world
      { world := next.2
        calls := Table.upsert PlanCall.quoteId { call with stage := next.1 } s.calls }

abbrev run (options : Options) (s : PlanningState) (schedule : List Id) : PlanningState :=
  Machine.run (step options) s schedule

/-- A call about to write the stock back writes over the stock it listed. -/
def Undisturbed (s : PlanningState) (quoteId : Id) : Prop :=
  ∀ call ∈ Table.lookup PlanCall.quoteId quoteId s.calls, ∀ listed ∈ call.listed,
    s.world.store.stock = listed

instance (s : PlanningState) (quoteId : Id) : Decidable (s.Undisturbed quoteId) :=
  inferInstanceAs (Decidable (∀ call ∈ Table.lookup PlanCall.quoteId quoteId s.calls,
    ∀ listed ∈ call.listed, s.world.store.stock = listed))

/-- A call about to plan finds its quote and the stock counted in units of `2 ^ k`. -/
def CountedIn (k : ℤ) (s : PlanningState) (quoteId : Id) : Prop :=
  ∀ call ∈ Table.lookup PlanCall.quoteId quoteId s.calls, ∀ a ∈ call.planning,
    Countable k s.world.store.stock a call.overrides

instance (k : ℤ) (s : PlanningState) (quoteId : Id) : Decidable (s.CountedIn k quoteId) :=
  inferInstanceAs (Decidable (∀ call ∈ Table.lookup PlanCall.quoteId quoteId s.calls,
    ∀ a ∈ call.planning, Countable k s.world.store.stock a call.overrides))

/-- What all calls have reserved and not yet saved. -/
def pending (s : PlanningState) (key : StockKey) : Num :=
  (s.calls.map fun call => call.pending key).sum

end PlanningState

/-! ## What each step leaves -/

/-- The loaded copy of a stored quote without allocations. -/
def Unplanned (w : World) (quoteId : Id) (a : QuoteAggregate) : Prop :=
  ∃ q ∈ w.store.quotes, q.id = quoteId ∧ a.id = q.id ∧ a.lines = q.lines ∧ q.allocations = [] ∧
    a.allocations = []

/-- What a call knows is still so. -/
def PlanCall.Sound (w : World) (call : PlanCall) : Prop :=
  match call.stage with
  | .waiting => ∀ q ∈ w.store.quotes, q.id = call.quoteId → q.allocations = []
  | .loaded a => Unplanned w call.quoteId a
  | .drawn a listed plan reserved =>
      Unplanned w call.quoteId a ∧ ∃ input : PlanInput, input.lines = a.lines ∧ input.stock = listed ∧
        (∃ k, input.Counted k) ∧ planAndReserve input [] = .ok (plan, reserved)
  | .written a plan =>
      Unplanned w call.quoteId a ∧ ∀ split ∈ plan.allocations, 0 ≤ split.quantity
  | .ended => True

section Steps

variable {options : Options} {call : PlanCall} {w w' : World} {a : QuoteAggregate}

theorem Unplanned.of_quotes (h : ∀ q ∈ w.store.quotes, q.id = call.quoteId → q ∈ w'.store.quotes)
    (ha : Unplanned w call.quoteId a) : Unplanned w' call.quoteId a := by
  obtain ⟨q, hq, hid, hrest⟩ := ha
  exact ⟨q, h q hq hid, hid, hrest⟩

/-- A call goes on knowing what it knows while the quotes of its id stay the same. -/
theorem PlanCall.Sound.of_quotes
    (h : ∀ q, q.id = call.quoteId → (q ∈ w.store.quotes ↔ q ∈ w'.store.quotes))
    (hsound : call.Sound w) : call.Sound w' := by
  have hunplanned {a : QuoteAggregate} (ha : Unplanned w call.quoteId a) :
      Unplanned w' call.quoteId a := ha.of_quotes fun q hq hid => (h q hid).mp hq
  unfold PlanCall.Sound at hsound ⊢
  cases hstage : call.stage with
  | waiting =>
      simp only [hstage] at hsound ⊢
      exact fun q hq hid => hsound q ((h q hid).mpr hq) hid
  | loaded a =>
      simp only [hstage] at hsound ⊢
      exact hunplanned hsound
  | drawn a listed plan reserved =>
      simp only [hstage] at hsound ⊢
      exact ⟨hunplanned hsound.1, hsound.2⟩
  | written a plan =>
      simp only [hstage] at hsound ⊢
      exact ⟨hunplanned hsound.1, hsound.2⟩
  | ended => trivial

instance (call : PlanCall) : Keeps (· = ·) call.getQuote := by
  unfold PlanCall.getQuote
  dsimp only
  infer_instance

theorem getQuote_eq_ok (h : call.getQuote w = .ok a w') :
    w' = w ∧ ∃ q, Loaded w.store q a ∧ q.id = call.quoteId := by
  have hworld : w' = w := readOnly_of_ok h
  unfold PlanCall.getQuote at h
  simp only [bind_eq_ok] at h
  obtain ⟨found, _, hload, _, _, -, _, _, -, hanswer⟩ := h
  obtain ⟨rfl, -⟩ := pure_eq_ok.mp hanswer
  exact ⟨hworld, loaded_of_load hload⟩

/-- Listing the stock draws ids and writes nothing. -/
theorem store_listStock (options : Options) (call : PlanCall) (a : QuoteAggregate) (w : World) :
    (after (call.listStock options a) w).store = w.store ∧
      w.nextUuid ≤ (after (call.listStock options a) w).nextUuid := by
  have hids : randomUUIDs (planIds w.store a call.overrides) w = .ok (fun index => w.nextUuid + index)
      { w with nextUuid := w.nextUuid + planIds w.store a call.overrides } := rfl
  simp only [PlanCall.listStock, after_read_bind]
  rw [after_bind_of_ok hids]
  rcases after_lift_bind (planAndReserve (planInput (call.env options) w.store
      (fun index => w.nextUuid + index) a call.overrides) a.allocations) _
      { w with nextUuid := w.nextUuid + planIds w.store a call.overrides } with
    hend | ⟨planned, -, hend⟩
  · rw [hend]
    exact ⟨rfl, Nat.le_add_right _ _⟩
  · rw [hend]
    exact ⟨rfl, Nat.le_add_right _ _⟩

theorem listStock_eq_ok {listed reserved : List StockLevel} {plan : FulfillmentPlan}
    (h : call.listStock options a w = .ok (listed, plan, reserved) w') :
    ∃ input : PlanInput, input.lines = a.lines ∧ input.overrides = call.overrides ∧ input.stock = w.store.stock ∧
      input.stock = listed ∧ planAndReserve input a.allocations = .ok (plan, reserved) := by
  simp only [PlanCall.listStock, bind_eq_ok, read_eq_ok, randomUUIDs_eq_ok, lift_eq_ok, pure_eq_ok,
    Prod.mk.injEq] at h
  obtain ⟨_, _, ⟨rfl, rfl⟩, _, _, ⟨rfl, rfl⟩, _, _, ⟨hplanned, rfl⟩, ⟨rfl, rfl⟩, rfl⟩ := h
  exact ⟨_, rfl, rfl, rfl, rfl, hplanned⟩

end Steps

/-- What the next step of a call can be. -/
inductive Advanced (options : Options) (call : PlanCall) (w : World) : PlanStage → World → Prop
  | loaded {q a} (hstage : call.stage = .waiting) (hq : Loaded w.store q a)
      (hid : q.id = call.quoteId) : Advanced options call w (.loaded a) w
  | drawn {a w' plan reserved} {input : PlanInput} (hstage : call.stage = .loaded a)
      (hstore : w'.store = w.store) (hnext : w.nextUuid ≤ w'.nextUuid) (hlines : input.lines = a.lines)
      (hoverrides : input.overrides = call.overrides) (hstock : input.stock = w.store.stock)
      (hplanned : planAndReserve input a.allocations = .ok (plan, reserved)) :
      Advanced options call w (.drawn a input.stock plan reserved) w'
  | wrote {a listed plan reserved} (hstage : call.stage = .drawn a listed plan reserved) :
      Advanced options call w (.written a plan) (after (PlanCall.replaceStock reserved) w)
  | saved {a plan} (hstage : call.stage = .written a plan) :
      Advanced options call w .ended (after (call.saveQuote options a plan) w)
  | ended {w'} (hsettled : call.Settled) (hstore : w'.store = w.store)
      (hnext : w.nextUuid ≤ w'.nextUuid) : Advanced options call w .ended w'

theorem advanced (options : Options) (call : PlanCall) (w : World) :
    Advanced options call w (call.advance options w).1 (call.advance options w).2 := by
  unfold PlanCall.advance
  cases hstage : call.stage with
  | waiting =>
      dsimp only
      cases hget : call.getQuote w with
      | ok a w' =>
          obtain ⟨rfl, q, hq, hid⟩ := getQuote_eq_ok hget
          exact .loaded hstage hq hid
      | error e w' =>
          have hworld : w = w' := Keeps.of_error hget
          rw [← hworld]
          exact .ended (by rw [PlanCall.Settled, hstage]; rfl) rfl le_rfl
  | loaded a =>
      have hlisted := store_listStock options call a w
      dsimp only
      cases hlist : call.listStock options a w with
      | ok planned w' =>
          obtain ⟨listed, plan, reserved⟩ := planned
          obtain ⟨input, hlines, hoverrides, hstock, rfl, hplanned⟩ := listStock_eq_ok hlist
          rw [after_of_ok hlist] at hlisted
          exact .drawn hstage hlisted.1 hlisted.2 hlines hoverrides hstock hplanned
      | error e w' =>
          rw [after_of_error hlist] at hlisted
          exact .ended (by rw [PlanCall.Settled, hstage]; rfl) hlisted.1 hlisted.2
  | drawn a listed plan reserved => exact .wrote hstage
  | written a plan => exact .saved hstage
  | ended => exact .ended (by rw [PlanCall.Settled, hstage]; rfl) rfl le_rfl

theorem pending_of_settled {call : PlanCall} (h : call.Settled) (key : StockKey) : call.pending key = 0 := by
  unfold PlanCall.pending
  cases hstage : call.stage with
  | written a plan =>
      rw [PlanCall.Settled, hstage] at h
      cases h
  | _ => rfl

/-! ## The books while calls are under way -/

/-- What a row has to be reserved for: what was reserved before the calls, what the quotes hold, and
what calls have written and not saved. -/
def PlanningState.due (before : StockKey → Num) (s : PlanningState) (key : StockKey) : Num :=
  before key + held s.world.store.quotes key + s.pending key

/-- The books while calls are under way. -/
structure PlanningState.Books (before : StockKey → Num) (s : PlanningState) : Prop where
  indexed : s.world.Indexed
  lines : ∀ q ∈ s.world.store.quotes, (q.lines.map (·.id)).Nodup
  products : ProductsKnown s.world
  distinct : Table.Distinct PlanCall.quoteId s.calls
  sound : ∀ call ∈ s.calls, call.Sound s.world
  nonneg : ∀ key, 0 ≤ s.due before key
  balanced : Balanced (s.due before) s.world.store.stock

section Books

variable {options : Options} {before : StockKey → Num} {s : PlanningState} {call : PlanCall}
  {stage : PlanStage} {w' : World}

/-- One call moved on, in a world that may have moved with it. -/
abbrev PlanningState.moved (s : PlanningState) (call : PlanCall) (stage : PlanStage) (w' : World) :
    PlanningState where
  world := w'
  calls := Table.upsert PlanCall.quoteId { call with stage } s.calls

theorem pending_moved (hd : Table.Distinct PlanCall.quoteId s.calls) (hcall : call ∈ s.calls)
    (key : StockKey) :
    (s.moved call stage w').pending key
      = s.pending key + PlanCall.pending { call with stage } key - call.pending key := by
  unfold PlanningState.pending
  rw [Table.sum_upsert, show Table.lookup PlanCall.quoteId
    (PlanCall.quoteId { call with stage }) s.calls = some call from Table.lookup_of_mem hd hcall]
  rfl

theorem sound_moved (h : s.Books before)
    (hsame : ∀ other ∈ s.calls, other.quoteId ≠ call.quoteId → other.Sound w')
    (hsound : PlanCall.Sound w' { call with stage }) :
    ∀ other ∈ (s.moved call stage w').calls, other.Sound w' := by
  intro other hother
  rcases (Table.mem_upsert_iff h.distinct).mp hother with rfl | ⟨hother, hne⟩
  · exact hsound
  · exact hsame other hother hne

/-- A step that leaves the store alone and reserves nothing keeps the books. -/
theorem PlanningState.Books.quiet (h : s.Books before) (hcall : call ∈ s.calls)
    (hstore : w'.store = s.world.store) (hnext : s.world.nextUuid ≤ w'.nextUuid)
    (hsettled : call.Settled) (hafter : PlanCall.Settled { call with stage })
    (hsound : PlanCall.Sound w' { call with stage }) : (s.moved call stage w').Books before := by
  have hdue : (s.moved call stage w').due before = s.due before := by
    funext key
    unfold due
    rw [pending_moved h.distinct hcall, pending_of_settled hsettled, pending_of_settled hafter,
      add_zero, sub_zero, hstore]
  have hquotes : w'.store.quotes = s.world.store.quotes := by rw [hstore]
  exact
    { indexed :=
        { distinct := by
            rw [hquotes]
            exact h.indexed.distinct
          fresh := by
            rw [hquotes]
            exact fun q hq => (h.indexed.fresh q hq).trans_le hnext }
      lines := by
        rw [hquotes]
        exact h.lines
      products := by
        unfold ProductsKnown
        rw [hstore]
        exact h.products
      distinct := Table.distinct_upsert h.distinct _
      sound := sound_moved h (fun other hother _ =>
        (h.sound other hother).of_quotes fun q _ => by rw [hquotes]) hsound
      nonneg := by
        rw [hdue]
        exact h.nonneg
      balanced := by
        rw [hdue, hstore]
        exact h.balanced }

/-- Writing the table back where it was listed puts the plan onto the rows. -/
theorem PlanningState.Books.write (h : s.Books before) (hcall : call ∈ s.calls)
    {a : QuoteAggregate} {listed reserved : List StockLevel} {plan : FulfillmentPlan}
    (hstage : call.stage = .drawn a listed plan reserved)
    (hundisturbed : s.world.store.stock = listed) :
    (s.moved call (.written a plan) (after (PlanCall.replaceStock reserved) s.world)).Books before := by
  have hsound := h.sound call hcall
  unfold PlanCall.Sound at hsound
  simp only [hstage] at hsound
  obtain ⟨⟨q, hq, hid, haid, hlines, hnone, hfree⟩, input, hinput, hlisted, ⟨k, hcounted⟩, hplanned⟩ := hsound
  have hdistinct : (input.lines.map (·.id)).Nodup := by
    rw [hinput, hlines]
    exact h.lines q hq
  have hbalanced : Balanced (s.due before) input.stock := by
    rw [hlisted, ← hundisturbed]
    exact h.balanced
  obtain ⟨hnonneg, hreserved⟩ := hbalanced.plan hdistinct hcounted (fun _ hsplit => absurd hsplit List.not_mem_nil)
    h.nonneg hplanned
  have hsettled : call.Settled := by
    rw [PlanCall.Settled, hstage]
    rfl
  have hdue : (s.moved call (.written a plan) (after (PlanCall.replaceStock reserved) s.world)).due before
      = fun key => s.due before key + heldBy input.lines plan.allocations key
        - heldBy input.lines [] key := by
    funext key
    unfold due
    rw [pending_moved h.distinct hcall, pending_of_settled hsettled, heldBy_nil, sub_zero, sub_zero, hinput]
    exact (add_assoc _ _ _).symm
  exact
    { indexed := ⟨h.indexed.distinct, h.indexed.fresh⟩
      lines := h.lines
      products := h.products
      distinct := Table.distinct_upsert h.distinct _
      sound := sound_moved h (fun other hother _ => h.sound other hother)
        ⟨⟨q, hq, hid, haid, hlines, hnone, hfree⟩, hnonneg⟩
      nonneg := fun key => by
        rw [hdue]
        have hadded : 0 ≤ heldBy input.lines plan.allocations key := sumAt_nonneg hnonneg key
        have hdue := h.nonneg key
        show 0 ≤ s.due before key + heldBy input.lines plan.allocations key - 0
        linarith
      balanced := by
        rw [hdue]
        exact hreserved }

/-- Saving the quote takes over what the call has written. -/
theorem PlanningState.Books.save (h : s.Books before) (hcall : call ∈ s.calls) {a : QuoteAggregate}
    {plan : FulfillmentPlan} (hstage : call.stage = .written a plan) :
    (s.moved call .ended (after (call.saveQuote options a plan) s.world)).Books before := by
  have hsound := h.sound call hcall
  unfold PlanCall.Sound at hsound
  simp only [hstage] at hsound
  obtain ⟨⟨q, hq, hid, haid, hlines, hnone, hfree⟩, hnonneg⟩ := hsound
  have hknown : ∀ line ∈ (bumpVersion (adoptPlan a plan)).lines,
      (s.world.store.getProduct line.productId).isSome = true := by
    show ∀ line ∈ a.lines, _
    rw [hlines]
    exact h.products q hq
  obtain ⟨pairs, hpairs⟩ := pairs_of_known hknown
  rcases after_saveAssessed (call.env options) (bumpVersion (adoptPlan a plan)) s.world with
    ⟨e, hfail, -⟩ | ⟨pairs, -, hsaved⟩
  · rw [hpairs] at hfail
    cases hfail
  · rw [show after (call.saveQuote options a plan) s.world = _ from hsaved]
    let record := savedRecord (call.env options) s.world.store (bumpVersion (adoptPlan a plan)) pairs
    have hrecord : record.id = q.id := haid
    have hwritten (key : StockKey) : call.pending key = heldBy a.lines plan.allocations key := by
      unfold PlanCall.pending
      rw [hstage]
    have hdue : (s.moved call .ended (s.world.withQuote record)).due before = s.due before := by
      funext key
      unfold due
      rw [pending_moved h.distinct hcall, hwritten]
      show before key + held (Table.upsert QuoteAggregate.id record s.world.store.quotes) key + _ = _
      rw [held_upsert h.indexed.distinct hq hrecord, hnone, heldBy_nil]
      show before key + (_ + heldBy a.lines plan.allocations key - 0) + (_ + 0 - _) = _
      ring
    have hquotes {other : QuoteAggregate} :
        other ∈ (s.world.withQuote record).store.quotes ↔
          other = record ∨ other ∈ s.world.store.quotes ∧ other.id ≠ record.id :=
      Table.mem_upsert_iff h.indexed.distinct
    exact
      { indexed :=
          { distinct := Table.distinct_upsert h.indexed.distinct record
            fresh := fun other hother => by
              rcases hquotes.mp hother with rfl | ⟨hother, -⟩
              · rw [hrecord]
                exact h.indexed.fresh q hq
              · exact h.indexed.fresh other hother }
        lines := fun other hother => by
          rcases hquotes.mp hother with rfl | ⟨hother, -⟩
          · show (a.lines.map (·.id)).Nodup
            rw [hlines]
            exact h.lines q hq
          · exact h.lines other hother
        products := fun other hother => by
          rcases hquotes.mp hother with rfl | ⟨hother, -⟩
          · exact hknown
          · exact h.products other hother
        distinct := Table.distinct_upsert h.distinct _
        sound := sound_moved h (fun other hother hne =>
          (h.sound other hother).of_quotes fun q' hq' => by
            rw [hquotes]
            constructor
            · exact fun hmem => .inr ⟨hmem, fun heq => hne (hq'.symm.trans (heq.trans (hrecord.trans hid)))⟩
            · rintro (rfl | ⟨hmem, -⟩)
              · exact absurd (hq'.symm.trans (hrecord.trans hid)) hne
              · exact hmem) trivial
        nonneg := by
          rw [hdue]
          exact h.nonneg
        balanced := by
          rw [hdue]
          exact h.balanced }

/-- Every step that plans with counted quantities and writes stock over the stock it listed keeps the books. -/
theorem PlanningState.Books.step (h : s.Books before) {quoteId : Id} (hundisturbed : s.Undisturbed quoteId)
    {k : ℤ} (hcounted : s.CountedIn k quoteId) : (s.step options quoteId).Books before := by
  unfold PlanningState.step
  cases hlookup : Table.lookup PlanCall.quoteId quoteId s.calls with
  | none => exact h
  | some call =>
      have hcall : call ∈ s.calls := Table.mem_of_lookup hlookup
      have hadvanced := advanced options call s.world
      have hsound := h.sound call hcall
      unfold PlanCall.Sound at hsound
      dsimp only
      generalize call.advance options s.world = next at hadvanced
      obtain ⟨stage, w'⟩ := next
      cases hadvanced with
      | @loaded q a hstage hq hid =>
          simp only [hstage] at hsound
          have hnone := hsound q hq.mem hid
          have haid := congrArg Quote.id hq.quote
          have hunplanned : Unplanned s.world call.quoteId a :=
            ⟨q, hq.mem, hid, haid, hq.lines, hnone, hq.allocations.trans hnone⟩
          have hsettled : call.Settled := by
            rw [PlanCall.Settled, hstage]
            rfl
          exact h.quiet hcall rfl le_rfl hsettled rfl hunplanned
      | @drawn a w' plan reserved input hstage hstore hnext hlines hoverrides hstock hplanned =>
          simp only [hstage] at hsound
          have hplanning : a ∈ call.planning := by
            unfold PlanCall.planning
            rw [hstage]
            rfl
          have hcountable := hcounted call hlookup a hplanning
          rw [← hoverrides, ← hstock] at hcountable
          have hunplanned : Unplanned w' call.quoteId a := by
            unfold Unplanned
            rw [hstore]
            exact hsound
          obtain ⟨q, hq, hid, haid, hqlines, hnone, hfree⟩ := hsound
          rw [hfree] at hplanned
          have hsettled : call.Settled := by
            rw [PlanCall.Settled, hstage]
            rfl
          exact h.quiet hcall hstore hnext hsettled rfl
            ⟨hunplanned, input, hlines, rfl, ⟨k, Countable.counted hcountable hlines⟩, hplanned⟩
      | @wrote a listed plan reserved hstage =>
          have hlisted : listed ∈ call.listed := by
            unfold PlanCall.listed
            rw [hstage]
            rfl
          exact h.write hcall hstage (hundisturbed call hlookup listed hlisted)
      | saved hstage => exact h.save hcall hstage
      | ended hsettled hstore hnext => exact h.quiet hcall hstore hnext hsettled rfl trivial

end Books

/-! ## Confirmed quotes -/

/-- Confirmed quotes, none of them planned yet, with ids and products as the store keeps them. -/
structure ConfirmedQuotes (w : World) : Prop where
  indexed : w.Indexed
  lines : ∀ q ∈ w.store.quotes, LinesIdentified w.nextUuid q
  products : ProductsKnown w
  confirmed : ∀ q ∈ w.store.quotes, q.quote.status = .confirmed
  unplanned : ∀ q ∈ w.store.quotes, q.allocations = []

/-- A quote is confirmed before it is planned, and leaves the status with its first plan. -/
def ConfirmedUnplanned (q : QuoteAggregate) : Prop :=
  AllocatedWhileWon q ∧ (q.quote.status = .confirmed → q.allocations = [])

theorem ConfirmedUnplanned.change {env : Env} {w w' : World} {a b : QuoteAggregate} {op : QuoteEdit}
    (h : Change env w w' a b op) (hwon : AllocatedWhileWon a)
    (ha : a.quote.status = .confirmed → a.allocations = []) (hb : b.quote.status = .confirmed) :
    b.allocations = [] := by
  have hstage := lockStage_le_of_moves h.moves
  cases h with
  | planned hstatus hplanned hstock hconsumed hbody =>
      have hstatus := eq_of_body (fun c => c.quote.status) hbody (fun _ => rfl)
      rw [hstatus] at hb
      revert hb
      show (if a.quote.status = .confirmed then QuoteStatus.fulfillment else a.quote.status) = .confirmed
        → _
      split
      · exact fun hb => nomatch hb
      · exact fun hb => absurd hb ‹_›
  | _ =>
      have hbody := ‹b.body = _›
      have hallocations := eq_of_body (fun c => c.allocations) hbody (fun _ => rfl)
      rw [show b.allocations = a.allocations from hallocations]
      by_contra hne
      rw [hb] at hstage
      have hpositive := isWon_iff_lockStage.mp (hwon hne)
      refine hne (ha ?_)
      revert hstage hpositive
      cases a.quote.status <;> decide

theorem confirmedUnplanned_invariant : QuoteInvariant fun _ => ConfirmedUnplanned where
  core {_ a b} h ha := by
    have hparts := eq_of_core (fun c => (c.allocations, c.quote.status)) h (fun _ => rfl)
    obtain ⟨hallocations, hstatus⟩ := Prod.mk.inj hparts
    refine ⟨ha.1.of_core h, fun hb => ?_⟩
    rw [← hallocations]
    exact ha.2 (hstatus.trans hb)
  mono _ hq := hq
  draft hdraft := ⟨fun hne => absurd hdraft.allocations hne, fun _ => hdraft.allocations⟩
  change {env w w₁ a b op} hframe hchange ha :=
    ⟨allocatedWhileWon_invariant.change hframe hchange ha.1,
      ConfirmedUnplanned.change hchange ha.1 ha.2⟩

/-- After every run that leaves all quotes confirmed. -/
theorem confirmedQuotes_of_run {w₀ : World} (hfresh : w₀.Fresh) (options : Options)
    (requests : List Request)
    (hconfirmed : ∀ q ∈ (serveAll options w₀ requests).store.quotes, q.quote.status = .confirmed) :
    ConfirmedQuotes (serveAll options w₀ requests) where
  indexed := hfresh.indexed.serveAll options requests
  lines := linesIdentified_invariant.of_fresh hfresh requests
  products := by
    refine Machine.invariant (fun w request (h : ProductsKnown w) => h.serve options request) ?_ requests
    intro q hq
    rw [hfresh.quotes] at hq
    cases hq
  confirmed := hconfirmed
  unplanned q hq :=
    (confirmedUnplanned_invariant.of_fresh hfresh requests q hq).2 (hconfirmed q hq)

/-! ## Runs -/

/-- What the rows were reserved for. -/
def reservedIn (stock : List StockLevel) (key : StockKey) : Num :=
  ((findRow stock key).map (·.reserved)).getD 0

/-- However the steps of the planning calls of confirmed quotes are interleaved, if every call plans with
quantities counted in one unit and writes over the stock it listed, then once no call is between its
write and its save each row is reserved for what was reserved before and what the quotes hold on it, and
for no more than is on hand. -/
theorem planning_never_oversells (options : Options) (w₀ : World) (hquotes : ConfirmedQuotes w₀)
    (hrows : Table.Distinct StockLevel.key w₀.store.stock)
    (hstock : ∀ row ∈ w₀.store.stock, 0 ≤ row.reserved ∧ row.reserved ≤ row.quantityOnHand)
    (calls : List PlanCall) (hcalls : Table.Distinct PlanCall.quoteId calls)
    (hwaiting : ∀ call ∈ calls, call.stage = .waiting) (schedule : List Id)
    (hmeets : Machine.Meets (PlanningState.step options)
      (fun s quoteId => s.Undisturbed quoteId ∧ ∃ k, s.CountedIn k quoteId) ⟨w₀, calls⟩ schedule) :
    let s := PlanningState.run options ⟨w₀, calls⟩ schedule
    (∀ call ∈ s.calls, call.Settled) → ∀ row ∈ s.world.store.stock,
      row.reserved = reservedIn w₀.store.stock row.key + held s.world.store.quotes row.key ∧
        row.reserved ≤ row.quantityOnHand := by
  intro s hsettled row hrow
  have hheld (key : StockKey) : held w₀.store.quotes key = 0 := by
    unfold held
    refine List.sum_eq_zero fun x hx => ?_
    obtain ⟨q, hq, rfl⟩ := List.mem_map.mp hx
    rw [hquotes.unplanned q hq]
    exact heldBy_nil _ _
  have hpending (key : StockKey) : PlanningState.pending ⟨w₀, calls⟩ key = 0 := by
    unfold PlanningState.pending
    refine List.sum_eq_zero fun x hx => ?_
    obtain ⟨call, hcall, rfl⟩ := List.mem_map.mp hx
    refine pending_of_settled ?_ key
    rw [PlanCall.Settled, hwaiting call hcall]
    rfl
  have hdue (key : StockKey) :
      PlanningState.due (reservedIn w₀.store.stock) ⟨w₀, calls⟩ key = reservedIn w₀.store.stock key := by
    unfold PlanningState.due
    rw [hheld, hpending, add_zero, add_zero]
  have hlookup {row : StockLevel} (hrow : row ∈ w₀.store.stock) :
      reservedIn w₀.store.stock row.key = row.reserved := by
    unfold reservedIn
    rw [show findRow w₀.store.stock row.key = some row from Table.lookup_of_mem hrows hrow]
    rfl
  have hstart : PlanningState.Books (reservedIn w₀.store.stock) ⟨w₀, calls⟩ :=
    { indexed := hquotes.indexed
      lines := fun q hq => (hquotes.lines q hq).distinct
      products := hquotes.products
      distinct := hcalls
      sound := fun call hcall => by
        unfold PlanCall.Sound
        rw [hwaiting call hcall]
        exact fun q hq _ => hquotes.unplanned q hq
      nonneg := fun key => by
        rw [hdue]
        unfold reservedIn
        cases hfind : findRow w₀.store.stock key with
        | none => exact le_rfl
        | some row => exact (hstock row (Table.mem_of_lookup hfind)).1
      balanced :=
        { distinct := hrows
          reserved := fun row hrow => by rw [hdue, hlookup hrow]
          onHand := fun row hrow => (hstock row hrow).2 } }
  have hend : s.Books (reservedIn w₀.store.stock) :=
    Machine.invariant_of_meets (fun _ _ h hmeets => h.step hmeets.1 hmeets.2.choose_spec) hstart hmeets
  have hnothing : s.pending row.key = 0 := by
    unfold PlanningState.pending
    refine List.sum_eq_zero fun x hx => ?_
    obtain ⟨call, hcall, rfl⟩ := List.mem_map.mp hx
    exact pending_of_settled (hsettled call hcall) row.key
  have hreserved := hend.balanced.reserved row hrow
  unfold PlanningState.due at hreserved
  rw [hnothing, add_zero] at hreserved
  exact ⟨hreserved, hend.balanced.onHand row hrow⟩

/-- A confirmed quote of four gateways. -/
def soldQuote (id : Id) : QuoteAggregate :=
  let draft := newDraft { options := plainOptions, outside := {} } id "DF-00001" (id + 1)
    { id := 1, name := "Northwind Retail", email := "demo.user@example.com", tier := .standard } administrator.id
  { draft with
    quote := { draft.quote with status := .confirmed, version := 5 }
    lines :=
      [{ id := id + 2
         quoteId := id
         productId := 11
         quantity := 4
         listPrice := 4000
         discountPercent := 0
         unitCost := 2500 }] }

/-- Two of them; the warehouses have four gateways and three. -/
def soldWorld : World :=
  { startWorld with store := { createMemoryStore with quotes := [soldQuote 40, soldQuote 50] } }

/-- A planning call for each. -/
def soldCalls : List PlanCall :=
  [{ quoteId := 40, expectedVersion := 5 }, { quoteId := 50, expectedVersion := 5 }]

theorem soldWorld_confirmed : ConfirmedQuotes soldWorld where
  indexed :=
    { distinct := by
        unfold Table.Distinct
        decide
      fresh := by decide }
  lines := by
    have hlines : ∀ q ∈ soldWorld.store.quotes,
        (q.lines.map (·.id)).Nodup ∧ ∀ line ∈ q.lines, line.id < soldWorld.nextUuid := by decide
    exact fun q hq => ⟨(hlines q hq).1, (hlines q hq).2⟩
  products := by
    unfold ProductsKnown
    decide
  confirmed := by decide
  unplanned := by decide

/-- The second call lists the stock after the first has written it, and they save in turn. -/
theorem planning_never_oversells_overlapping :
    let s := PlanningState.run plainOptions ⟨soldWorld, soldCalls⟩ [40, 50, 40, 40, 50, 50, 40, 50]
    (∀ call ∈ s.calls, call.Settled) → ∀ row ∈ s.world.store.stock,
      row.reserved = reservedIn soldWorld.store.stock row.key + held s.world.store.quotes row.key ∧
        row.reserved ≤ row.quantityOnHand := by
  have hrows : Table.Distinct StockLevel.key soldWorld.store.stock := by
    unfold Table.Distinct
    decide
  have hcalls : Table.Distinct PlanCall.quoteId soldCalls := by
    unfold Table.Distinct
    decide
  have hwaiting : ∀ call ∈ soldCalls, call.stage = .waiting := by simp [soldCalls]
  have hmeets : Machine.Meets (PlanningState.step plainOptions)
      (fun s quoteId => s.Undisturbed quoteId ∧ s.CountedIn 0 quoteId) ⟨soldWorld, soldCalls⟩
      [40, 50, 40, 40, 50, 50, 40, 50] := by decide +kernel
  exact planning_never_oversells plainOptions soldWorld soldWorld_confirmed hrows
    (by decide +kernel) soldCalls hcalls hwaiting _
    (Machine.meets_mono (fun _ _ h => ⟨h.1, 0, h.2⟩) hmeets)

/-- Both calls list the stock before either writes it: each plans the same four gateways, and two
quotes hold four each on a row of four. -/
theorem planning_oversells :
    let s := PlanningState.run plainOptions ⟨soldWorld, soldCalls⟩ [40, 50, 40, 50, 40, 50, 40, 50]
    (∀ call ∈ s.calls, call.stage.isEnded = true) ∧ ∃ row ∈ s.world.store.stock,
      row.quantityOnHand = 4 ∧ row.reserved = 4 ∧ held s.world.store.quotes row.key = 8 := by
  decide +kernel

end DealFlow360
