import DealFlow360.Ownership
import DealFlow360.PlanReserve
import DealFlow360.StockLedger
import Mathlib.Data.List.Dedup

/-!
# Planning again

A plan gives a product what is wanted of it or what is there, whichever is
less. The next plan of the quote is drawn against stock from which the one
before is still reserved and only then takes its place, so it sees what is
left: the two agree where twice as much is there, or where the plan before last
held just as much as is left now.

`PlannedAgain` is what one planning call leaves for the next: the same lines
and warehouses, an exact plan as the quote's allocations, and stock rows that
were moved by it. A plan takes the smaller of what is wanted and what is there
(`exact_plan_conservative`); the next one is drawn against what the first has
left free and then takes its place.

- `PlannedAgain.stockLeft`: what the second plan finds;
- `replans_iff`: two calls that go through;
- `replanning_iff`: for every reachable quote that is confirmed or in
  fulfillment and every stock table, counted in one unit, the second plan
  allocates what the first did exactly if the product was unwanted, or enough
  is left.

`shortage_invented` has seven gateways and a demand of four.
-/

namespace DealFlow360

open Doubles Ledger Program

/-! ## What a plan gives a product -/

/-- What the warehouses have of a product. -/
def listedStock (warehouses : List Warehouse) (rows : StockKey → Option StockLevel) (productId : Id) : Num :=
  ((warehouses.map (·.id)).dedup.map fun warehouseId => available id (rows (warehouseId, productId))).sum

section Totals

variable {input : PlanInput} {planning : Planning} {plan : FulfillmentPlan}

/-- The lines of a product get what the warehouses give of it. -/
theorem Planned.allocatedFor_eq (h : Planned input planning) (hdistinct : (input.lines.map (·.id)).Nodup)
    (productId : Id) :
    allocatedFor input.lines planning.allocations productId =
      ((input.warehouses.map (·.id)).dedup.map fun warehouseId =>
        heldBy input.lines planning.allocations (warehouseId, productId)).sum := by
  have hids : ((linesOf input.lines productId).map (·.id)).Nodup :=
    (List.filter_sublist.map QuoteLine.id).nodup hdistinct
  have hkeys : ((input.warehouses.map (·.id)).dedup.map fun warehouseId => (warehouseId, productId)).Nodup :=
    (List.nodup_dedup _).map fun _ _ heq => congrArg Prod.fst heq
  have hlines : allocatedFor input.lines planning.allocations productId =
      (((linesOf input.lines productId).map (·.id)).map
        (sumAt (fun split => some split.quoteLineId) (·.quantity) planning.allocations)).sum := by
    rw [List.map_map]
    rfl
  have hrows : ((input.warehouses.map (·.id)).dedup.map fun warehouseId =>
      heldBy input.lines planning.allocations (warehouseId, productId)) =
        ((input.warehouses.map (·.id)).dedup.map fun warehouseId => (warehouseId, productId)).map
          (heldBy input.lines planning.allocations) := by
    rw [List.map_map]
    rfl
  rw [hlines, hrows, sum_sumAt hids, sum_sumAt hkeys]
  congr 2
  refine List.filter_congr fun split hsplit => ?_
  obtain ⟨-, hshipped, ⟨line, hline, hlineId⟩, ⟨warehouse, hwarehouse, hwarehouseId⟩⟩ := h.splits split hsplit
  have haccount : splitAccount (productByLineId input.lines) split = some (split.warehouseId, line.productId) := by
    rw [splitAccount, hshipped, ← hlineId, productByLineId_of_mem hdistinct hline]
    rfl
  have hlisted : split.warehouseId ∈ (input.warehouses.map (·.id)).dedup := by
    rw [List.mem_dedup, ← hwarehouseId]
    exact List.mem_map_of_mem hwarehouse
  rw [haccount, Option.any_some, Option.any_some, decide_eq_decide, ← hlineId]
  simp only [List.mem_map, Prod.mk.injEq]
  constructor
  · rintro ⟨other, hother, hid⟩
    obtain ⟨hmem, hproduct⟩ := List.mem_filter.mp hother
    obtain rfl := eq_of_line_id hdistinct hline hmem hid.symm
    exact ⟨split.warehouseId, hlisted, rfl, (of_decide_eq_true hproduct).symm⟩
  · rintro ⟨_, -, -, hproduct⟩
    exact ⟨line, List.mem_filter.mpr ⟨hline, decide_eq_true hproduct.symm⟩, rfl⟩

/-- A plan gives a product what its lines want or what the warehouses have. -/
theorem allocatedFor_eq_min (hdistinct : (input.lines.map (·.id)).Nodup) (h : planFulfillment id input = .ok plan)
    (productId : Id) :
    allocatedFor input.lines plan.allocations productId =
      min (wantedFor input.lines productId)
        (listedStock input.warehouses (findRow input.stock) productId) := by
  obtain ⟨planning, hfilled, rfl⟩ := filled_of_plan hdistinct h
  have hplanned := hfilled.shared.planned
  show allocatedFor input.lines planning.allocations productId = _
  have hwanted := hfilled.allocated_le productId
  have hgiven := hplanned.allocatedFor_eq hdistinct productId
  have hlisted : allocatedFor input.lines planning.allocations productId ≤
      listedStock input.warehouses (findRow input.stock) productId := by
    rw [hgiven]
    exact List.sum_le_sum fun warehouseId _ => hplanned.capacity _
  by_cases hopen : ∃ line ∈ linesOf input.lines productId, 0 < planning.remainingOf line
  · obtain ⟨line, hline, hwants⟩ := hopen
    obtain ⟨hmem, hproduct⟩ := List.mem_filter.mp hline
    have hproduct : line.productId = productId := of_decide_eq_true hproduct
    have hall : allocatedFor input.lines planning.allocations productId =
        listedStock input.warehouses (findRow input.stock) productId := by
      rw [hgiven]
      refine congrArg List.sum (List.map_congr_left fun warehouseId hlist => ?_)
      rw [List.mem_dedup, List.mem_map] at hlist
      obtain ⟨warehouse, hwarehouse, rfl⟩ := hlist
      rw [← hproduct]
      exact hfilled.spent line hmem hwants warehouse hwarehouse
    rw [hall] at hwanted ⊢
    exact (min_eq_right hwanted).symm
  · have hall : allocatedFor input.lines planning.allocations productId = wantedFor input.lines productId := by
      refine congrArg List.sum (List.map_congr_left fun line hline => ?_)
      have hmem := List.mem_of_mem_filter hline
      have hdone : planning.remainingOf line ≤ 0 := not_lt.mp fun hwants => hopen ⟨line, hline, hwants⟩
      have hsplit := hfilled.shared.split line hmem
      have hshare := hfilled.shared.share line hmem
      have hnonneg := allocatedTo_nonneg (fun split hsplit => (hplanned.splits split hsplit).positive) line.id
      exact le_antisymm hshare (max_le hnonneg (by linarith))
    rw [hall] at hlisted ⊢
    exact (min_eq_left hlisted).symm

/-- What it leaves open is what is asked and not given. -/
theorem backorderFor_eq_max (hdistinct : (input.lines.map (·.id)).Nodup) (h : planFulfillment id input = .ok plan)
    (productId : Id) :
    backorderFor plan.backorders productId =
      max 0 (demandFor input.lines productId - allocatedFor input.lines plan.allocations productId) := by
  obtain ⟨planning, hfilled, rfl⟩ := filled_of_plan hdistinct h
  have hsum := hfilled.allocated_add_backlog productId
  rw [backorderFor_finish hfilled.distinct, ← hsum]
  show max 0 (planning.backlogOf productId) = max 0 (_ + _ - allocatedFor input.lines planning.allocations productId)
  rw [add_sub_cancel_left]

end Totals

/-- The rows once splits are released. -/
def freedRows (productOf : Id → Option Id) (stock : List StockLevel) (splits : List FulfillmentSplit)
    (key : StockKey) : Option StockLevel :=
  (findRow stock key).map (released (sumAt (splitAccount productOf) (·.quantity) splits key))

/-- What is left when a plan has taken the place of the one before: what would be there without both, less what the
plan takes. -/
theorem available_replanned {rows : Option StockLevel} {taken held : Num} (htaken : 0 ≤ taken)
    (hheld : 0 ≤ held) (hreserved : ∀ row ∈ rows, 0 ≤ row.reserved) (hle : taken ≤ available id rows) :
    available id (rows.map fun row => stockAccounts.credit taken (released held row)) =
      available id (rows.map (released held)) - taken := by
  cases rows with
  | none =>
      have hnothing : taken = 0 := le_antisymm hle htaken
      rw [hnothing, sub_zero]
      rfl
  | some row =>
      have hfreed : max 0 (row.reserved - held) ≤ row.reserved :=
        max_le (hreserved row rfl) (sub_le_self _ hheld)
      show max 0 (row.quantityOnHand - (max 0 (row.reserved - held) + taken)) =
        max 0 (row.quantityOnHand - max 0 (row.reserved - held)) - taken
      replace hle : taken ≤ max 0 (row.quantityOnHand - row.reserved) := hle
      generalize max 0 (row.reserved - held) = free at hfreed ⊢
      rcases le_total (row.quantityOnHand - row.reserved) 0 with hfull | hroom
      · rw [max_eq_left hfull] at hle
        have hnothing : taken = 0 := le_antisymm hle htaken
        rw [hnothing, add_zero, sub_zero]
      · rw [max_eq_right hroom] at hle
        rw [max_eq_right (by linarith), max_eq_right (by linarith)]
        ring

/-- The second of two plans gives as much exactly if twice the first is there, or if nothing more is. -/
theorem min_sub_min_iff {wanted there freed : Num} :
    min wanted (freed - min wanted there) = min wanted there ↔
      if wanted ≤ there then 2 * wanted ≤ freed else freed = 2 * there := by
  by_cases hle : wanted ≤ there
  · rw [if_pos hle, min_eq_left hle, min_eq_left_iff]
    constructor
    · intro h
      linarith
    · intro h
      linarith
  · have hlt := not_le.mp hle
    rw [if_neg hle, min_eq_right hlt.le]
    constructor
    · intro h
      rcases min_choice wanted (freed - there) with heq | heq
      · rw [heq] at h
        linarith
      · rw [heq] at h
        linarith
    · intro h
      rw [h]
      have htwice : 2 * there - there = there := by ring
      rw [htwice]
      exact min_eq_right hlt.le

/-! ## A planning call -/

/-- The lines have ids of their own, and no split is of nothing. -/
def WellPlanned (n : ℕ) (q : QuoteAggregate) : Prop :=
  LinesIdentified n q ∧ ∀ split ∈ q.allocations, 0 < split.quantity

theorem wellPlanned_invariant : QuoteInvariant WellPlanned where
  core {n a b} h ha := by
    refine ⟨ha.1.of_core h, ?_⟩
    rw [← eq_of_core (fun c => c.allocations) h (fun _ => rfl)]
    exact ha.2
  mono hle hq := ⟨linesIdentified_invariant.mono hle hq.1, hq.2⟩
  draft hdraft := by
    refine ⟨linesIdentified_invariant.draft hdraft, ?_⟩
    rw [hdraft.allocations]
    exact fun _ hsplit => absurd hsplit List.not_mem_nil
  change {env w w₁ a b op} hframe hchange ha := by
    refine ⟨linesIdentified_invariant.change hframe hchange ha.1, ?_⟩
    cases hop : op.plans with
    | false =>
        rw [hchange.allocations_of_unplanned hop]
        exact ha.2
    | true =>
        cases op with
        | planFulfillment quoteId overrides version =>
            obtain ⟨-, planned, hplanned, -, hallocations⟩ := hchange.plan
            obtain ⟨plan, hplan, hplanned⟩ := except_bind_eq_ok.mp hplanned
            obtain ⟨_, -, hplanned⟩ := except_bind_eq_ok.mp hplanned
            obtain rfl := Except.ok.inj hplanned
            rw [hallocations]
            exact fun split hsplit => (splits_of_plan hplan split hsplit).positive
        | _ => cases hop

/-- A world in which quotes can be planned: whatever its stock is, no row is reserved for less than nothing. -/
structure Plannable (w : World) : Prop where
  indexed : w.Indexed
  quotes : ∀ q ∈ w.store.quotes, WellPlanned w.nextUuid q
  products : ProductsKnown w
  reserved : ∀ key row, findRow w.store.stock key = some row → 0 ≤ row.reserved

/-- A call that plans a quote at its version, without overrides. -/
def planRequest (outside : Outside) (q : QuoteAggregate) : Request where
  operation := .edit (.planFulfillment q.id [] q.quote.version)
  outside := outside

/-- The customer is there, and the rows the quote's allocations hold are. -/
def PlanRuns (w : World) (q : QuoteAggregate) : Prop :=
  (w.store.getCustomer q.quote.customerId).isSome ∧
    ∀ split ∈ q.allocations, Booked (productByLineId q.lines) w.store.stock split

/-- What a call that goes through makes of a quote and of stock that are counted. -/
structure PlannedAgain (k : ℤ) (w : World) (q : QuoteAggregate) (w' : World) (q' : QuoteAggregate) : Prop where
  plannable : Plannable w'
  mem : q' ∈ w'.store.quotes
  sameId : q'.id = q.id
  lines : q'.lines = q.lines
  status : isOpenForPlanning q'.quote.status = true
  runs : PlanRuns w' q'
  countable : Countable k w'.store.stock q' []
  warehouses : w'.store.warehouses = w.store.warehouses
  plan : ∃ input plan, input.lines = q.lines ∧ input.warehouses = w.store.warehouses ∧
    input.stock = w.store.stock ∧ planFulfillment id input = .ok plan ∧ q'.allocations = plan.allocations ∧
      q'.backorders = plan.backorders
  rows : ∀ key, findRow w'.store.stock key = (findRow w.store.stock key).map fun row =>
    stockAccounts.credit (heldBy q.lines q'.allocations key) (released (heldBy q.lines q.allocations key) row)

section Call

variable {options : Options} {w : World} {q a : QuoteAggregate} {outside : Outside} {k : ℤ}

/-- Without overrides there is always a plan; its reservation is refused where a row that is held is missing. -/
theorem planAndReserve_isOk_iff (env : Env) (uuid : ℕ → Id) (hw : Plannable w) (hq : Loaded w.store q a)
    (hcountable : Countable k w.store.stock q []) :
    (∃ planned, planAndReserve (planInput env w.store uuid a []) a.allocations = .ok planned) ↔
      ∀ split ∈ q.allocations, Booked (productByLineId q.lines) w.store.stock split := by
  obtain ⟨hidentified, hpositive⟩ := hw.quotes q hq.mem
  have hinput : (planInput env w.store uuid a []).Counted k := Countable.counted hcountable hq.lines
  have hlines : OneProduct (planInput env w.store uuid a []).lines := by
    show OneProduct a.lines
    rw [hq.lines]
    exact oneProduct_of_distinct hidentified.distinct
  obtain ⟨plan, hplan⟩ : ∃ plan, planFulfillment double (planInput env w.store uuid a []) = .ok plan := ⟨_, rfl⟩
  obtain ⟨exact, hexact, hsame⟩ := exact_of_plan hinput hlines hplan
  obtain ⟨planning, hplanned, hallocations⟩ := planned_of_plan hlines hexact
  have hprevious : ∀ split ∈ q.allocations, 0 ≤ split.quantity := fun split hsplit => (hpositive split hsplit).le
  have hreserves := hplanned.reserves_iff hlines hprevious hw.reserved
  rw [hallocations, hsame, ← reserveStock_double hinput hlines hw.reserved
    (fun split hsplit => ⟨hprevious split hsplit, hcountable.allocations split hsplit⟩) hplan,
    show (planInput env w.store uuid a []).lines = q.lines from hq.lines] at hreserves
  rw [← show _ ↔ ∀ split ∈ q.allocations, Booked (productByLineId q.lines) w.store.stock split from hreserves]
  unfold planAndReserve
  rw [hq.allocations, show (planInput env w.store uuid a []).lines = q.lines from hq.lines]
  constructor
  · rintro ⟨planned, hok⟩
    obtain ⟨plan', hplan', hok⟩ := except_bind_eq_ok.mp hok
    obtain rfl := Except.ok.inj (hplan'.symm.trans hplan)
    obtain ⟨stock', hreserve, -⟩ := except_bind_eq_ok.mp hok
    exact ⟨stock', hreserve⟩
  · rintro ⟨stock', hreserve⟩
    exact ⟨(plan, stock'), except_bind_eq_ok.mpr
      ⟨plan, hplan, except_bind_eq_ok.mpr ⟨stock', hreserve, rfl⟩⟩⟩

theorem plan_succeeds (hw : Plannable w) (hq : q ∈ w.store.quotes) (hcountable : Countable k w.store.stock q [])
    (hopen : isOpenForPlanning q.quote.status = true) (hruns : PlanRuns w q) :
    succeeds options w (planRequest outside q) = true := by
  obtain ⟨hcustomer, hbooked⟩ := hruns
  obtain ⟨customer, hcustomer⟩ := Option.isSome_iff_exists.mp hcustomer
  obtain ⟨a, hattach⟩ : ∃ a, w.store.attach q = .ok a := ⟨_, attach_eq_ok.mpr ⟨customer, hcustomer, rfl⟩⟩
  have hloaded : Loaded w.store q a := ⟨hq, hattach⟩
  have hload : load q.id w = .ok a w := by
    have hstored : w.store.storedQuote q.id = some q := Table.lookup_of_mem hw.indexed.distinct hq
    rw [load_eq, findById, hstored]
    exact lift_eq_ok.mpr ⟨hattach, rfl⟩
  obtain ⟨planned, hplanned⟩ := (planAndReserve_isOk_iff ((planRequest outside q).env options)
    (fun index => w.nextUuid + index) hw hloaded hcountable).mpr hbooked
  have hedit : ((QuoteEdit.planFulfillment q.id [] q.quote.version).mutation
      ((planRequest outside q).env options)).edit a w =
        .ok (some (bumpVersion (adoptPlan a planned.1)))
          { w with
            nextUuid := w.nextUuid + planIds w.store a []
            store := w.store.replaceStock planned.2 } := by
    show (planQuote ((planRequest outside q).env options) q.id [] q.quote.version).edit a w = _
    simp only [planQuote, Mutation.saving, map_eq_ok, bind_eq_ok, assertExpectedVersion_eq_ok, throwIf_eq_ok,
      read_eq_ok, randomUUIDs_eq_ok, lift_eq_ok, updateStore_eq_ok, pure_eq_ok]
    refine ⟨_, ⟨⟨⟩, _, ⟨by rw [hloaded.quote], rfl⟩, ⟨⟩, _, ⟨?_, rfl⟩, _, _, ⟨rfl, rfl⟩, _, _, ⟨rfl, rfl⟩, planned, _,
      ⟨hplanned, rfl⟩, ⟨⟩, _, rfl, rfl, rfl⟩, rfl⟩
    rw [hloaded.quote, not_not]
    exact hopen
  obtain ⟨pairs, hpairs⟩ : ∃ pairs, pairProducts (w.store.replaceStock planned.2) a.lines = .ok pairs := by
    refine pairs_of_known fun line hline => ?_
    rw [hloaded.lines] at hline
    exact hw.products q hq line hline
  exact succeeds_of_saved rfl hload hloaded hedit hpairs

/-- A plan that is reserved, its splits and its rows. -/
theorem reserved_of_plan {input : PlanInput} {previous : List FulfillmentSplit}
    {planned : FulfillmentPlan × List StockLevel} (hinput : input.Counted k) (hlines : OneProduct input.lines)
    (hprevious : ∀ split ∈ previous, 0 ≤ split.quantity ∧ Exact k split.quantity)
    (hreserved : ∀ key row, findRow input.stock key = some row → 0 ≤ row.reserved)
    (h : planAndReserve input previous = .ok planned) :
    planFulfillment double input = .ok planned.1 ∧ (∀ split ∈ planned.1.allocations, 0 < split.quantity) ∧
      (∀ split ∈ planned.1.allocations, Booked (productByLineId input.lines) planned.2 split) ∧
        ∀ key, findRow planned.2 key = (findRow input.stock key).map fun row =>
          stockAccounts.credit (heldBy input.lines planned.1.allocations key)
            (released (heldBy input.lines previous key) row) := by
  obtain ⟨hplan, exact, hexact, hallocations, hreserve⟩ :=
    exact_of_planAndReserve hinput hlines hreserved hprevious h
  obtain ⟨planning, hfinal, hsplits⟩ := planned_of_plan hlines hexact
  rw [← hallocations]
  have hpositive : ∀ split ∈ exact.allocations, 0 < split.quantity := by
    rw [← hsplits]
    exact fun split hsplit => (hfinal.splits split hsplit).positive
  obtain ⟨hkeys, hrows⟩ := reserveStock_rows (fun split hsplit => (hprevious split hsplit).1)
    (fun split hsplit => (hpositive split hsplit).le) hreserved hreserve
  refine ⟨hplan, hpositive, ?_, hrows⟩
  rw [← hsplits]
  exact fun split hsplit => (hfinal.booked hlines split hsplit).congr hkeys

/-- A planned quote stays open for planning. -/
theorem Change.backorders_of_plan {env : Env} {w' : World} {b : QuoteAggregate} {quoteId : Id}
    {overrides : List FulfillmentOverride} {version : ℕ}
    (h : Change env w w' a b (.planFulfillment quoteId overrides version)) :
    isOpenForPlanning b.quote.status = true ∧ ∃ planned,
      planAndReserve (planInput env w.store (fun index => w.nextUuid + index) a overrides) a.allocations =
          .ok planned ∧ b.backorders = planned.1.backorders := by
  cases h with
  | planned hstatus hplanned hstock hconsumed hbody =>
      have hnow := eq_of_body (fun c => c.quote.status) hbody (fun _ => rfl)
      have hbackorders := eq_of_body (fun c => c.backorders) hbody (fun _ => rfl)
      refine ⟨?_, _, hplanned, hbackorders⟩
      rw [hnow]
      show isOpenForPlanning (if a.quote.status = .confirmed then .fulfillment else a.quote.status) = true
      split
      · rfl
      · exact hstatus
  | commercial hop => cases hop
  | proposed active hop => cases hop
  | moved active frozenAt frozenBy hop => cases hop
  | answered decision decidedAt comment decidedVersion active hop => cases hop

/-- A call that goes through. -/
theorem planned_of_runs (hw : Plannable w) (hq : q ∈ w.store.quotes) (hcountable : Countable k w.store.stock q [])
    (hdemand : DemandCounted k q.lines) (hopen : isOpenForPlanning q.quote.status = true) (hruns : PlanRuns w q) :
    ∃ q', PlannedAgain k w q (serve options w (planRequest outside q)) q' := by
  have hop : (planRequest outside q).operation = .edit (.planFulfillment q.id [] q.quote.version) := rfl
  have hserved : succeeds options w (planRequest outside q) = true := plan_succeeds hw hq hcountable hopen hruns
  obtain ⟨_, a, hload, -, hend⟩ := saved_of_succeeds hop hserved
  obtain ⟨q₀, hloaded, hid⟩ := loaded_of_load hload
  obtain rfl := hw.indexed.eq_of_id hloaded.mem hq hid
  rcases hend with ⟨w₁, hedit⟩ | ⟨b, w₁, pairs, hedit, hpairs, htail⟩
  · obtain ⟨_, -, hnone⟩ := map_eq_ok.mp hedit
    cases hnone
  · have hframe : EditFrame w w₁ := (keeps_edit _ _ a).of_ok hedit
    have hchange := change_of_edit _ hedit
    have hquotes := quotes_of_saved hframe htail
    obtain ⟨hlines, planned, hplanned, hstock, hallocations⟩ := hchange.plan
    obtain ⟨hopen', planned', hplanned', hbackorders⟩ := hchange.backorders_of_plan
    obtain rfl := Except.ok.inj (hplanned'.symm.trans hplanned)
    obtain ⟨hidentified, hpositive⟩ := hw.quotes q₀ hq
    have hprevious : ∀ split ∈ a.allocations, 0 ≤ split.quantity ∧ Exact k split.quantity := by
      rw [hloaded.allocations]
      exact fun split hsplit => ⟨(hpositive split hsplit).le, hcountable.allocations split hsplit⟩
    have hdistinct : (a.lines.map (·.id)).Nodup := by
      rw [hloaded.lines]
      exact hidentified.distinct
    have hone := oneProduct_of_distinct hdistinct
    have hinput : (planInput ((planRequest outside q₀).env options) w.store (fun index => w.nextUuid + index) a
        []).Counted k := Countable.counted hcountable hloaded.lines
    obtain ⟨hplan, hpositive', hbooked, hrows⟩ := reserved_of_plan hinput hone hprevious hw.reserved hplanned
    obtain ⟨exact, hexact, hsame, hopenSame⟩ := exact_of_plan_demand hdistinct hinput
      (by rw [show (planInput _ w.store _ a []).lines = q₀.lines from hloaded.lines]; exact hdemand) hplan
    obtain ⟨hcounted, hstockCounted⟩ := counted_of_reserved hinput hone hw.reserved hprevious hplan hrows
    have hstock' : (serve options w (planRequest outside q₀)).store.stock = planned'.2 := by
      rw [htail.store]
      exact hstock
    have hlines' : b.lines = q₀.lines := hlines.trans hloaded.lines
    have hrows' : ∀ key, findRow (serve options w (planRequest outside q₀)).store.stock key =
        (findRow w.store.stock key).map fun row =>
          stockAccounts.credit (heldBy q₀.lines b.allocations key)
            (released (heldBy q₀.lines q₀.allocations key) row) := by
      intro key
      rw [hstock', hrows, hallocations, ← hloaded.lines, ← hloaded.allocations]
      rfl
    refine ⟨savedRecord ((planRequest outside q₀).env options) w₁.store b pairs,
      { plannable :=
          { indexed := hw.indexed.serve options _
            quotes := wellPlanned_invariant.serve hw.quotes
            products := hw.products.serve options _
            reserved := ?_ }
        mem := ?_
        sameId := ?_
        lines := hlines'
        status := hopen'
        runs := ⟨?_, ?_⟩
        warehouses := ?_
        countable :=
          { lines := by
              show ∀ line ∈ b.lines, _
              rw [hlines']
              exact hcountable.lines
            overrides := fun _ hoverride => absurd hoverride List.not_mem_nil
            allocations := by
              show ∀ split ∈ b.allocations, _
              rw [hallocations]
              exact hcounted
            stock := by
              rw [hstock']
              exact hstockCounted }
        plan := ⟨planInput ((planRequest outside q₀).env options) w.store (fun index => w.nextUuid + index) a [],
          exact, hloaded.lines, rfl, rfl, hexact, hallocations.trans hsame.symm, hbackorders.trans hopenSame.symm⟩
        rows := hrows' }⟩
    · intro key row hrow
      rw [hrows' key] at hrow
      obtain ⟨before, -, rfl⟩ := Option.map_eq_some_iff.mp hrow
      refine add_nonneg (le_max_left _ _) ?_
      rw [hallocations]
      exact sumAt_nonneg (fun split hsplit => (hpositive' split hsplit).le) key
    · rw [hquotes]
      exact Table.mem_upsert_self _ _
    · exact hchange.id.trans (congrArg Quote.id hloaded.quote)
    · have hcustomer : b.quote.customerId = q₀.quote.customerId := by
        rw [← hloaded.quote]
        exact congrArg (·.2.1) hchange.identity
      refine htail.customers _ ?_
      show (w₁.store.getCustomer b.quote.customerId).isSome
      rw [hcustomer, hframe.store]
      exact hruns.1
    · show ∀ split ∈ b.allocations, Booked (productByLineId b.lines) _ split
      rw [hallocations, hlines, hstock']
      exact hbooked
    · rw [htail.store]
      show w₁.store.warehouses = _
      rw [hframe.store]

/-- A call that does not go through writes nothing to the store. -/
theorem store_of_not_runs (hw : Plannable w) (hq : q ∈ w.store.quotes)
    (hcountable : Countable k w.store.stock q []) (hruns : ¬PlanRuns w q) :
    (serve options w (planRequest outside q)).store = w.store := by
  have hop : (planRequest outside q).operation = .edit (.planFulfillment q.id [] q.quote.version) := rfl
  have houtcome := @outcome_of_serve options w _ _ hop
  rcases houtcome with hworld | ⟨_, a, hload, -, houtcome⟩
  · rw [hworld]
  · obtain ⟨q₀, hloaded, hid⟩ := loaded_of_load hload
    obtain rfl := hw.indexed.eq_of_id hloaded.mem hq hid
    have hrefused : ∀ planned, planAndReserve (planInput ((planRequest outside q₀).env options) w.store
        (fun index => w.nextUuid + index) a []) a.allocations ≠ .ok planned := by
      intro planned hplanned
      have hbooked := (planAndReserve_isOk_iff _ _ hw hloaded hcountable).mp ⟨planned, hplanned⟩
      exact hruns ⟨Option.isSome_iff_exists.mpr ⟨_, hloaded.customer⟩, hbooked⟩
    cases houtcome with
    | failed hedit => exact store_of_planQuote_error hedit
    | idle hedit htail =>
        obtain ⟨_, -, hnone⟩ := map_eq_ok.mp hedit
        cases hnone
    | unpriced hedit hpairs =>
        obtain ⟨-, planned, hplanned, -⟩ := (change_of_edit _ hedit).plan
        exact absurd hplanned (hrefused planned)
    | saved hedit hpairs htail =>
        obtain ⟨-, planned, hplanned, -⟩ := (change_of_edit _ hedit).plan
        exact absurd hplanned (hrefused planned)

end Call

/-! ## Two calls in a row -/

/-- What the warehouses would have of a product without the quote's own allocations. -/
def freedStock (w : World) (q : QuoteAggregate) (productId : Id) : Num :=
  listedStock w.store.warehouses (freedRows (productByLineId q.lines) w.store.stock q.allocations) productId

/-- Twice what the lines want is there without the quote's own allocations; or the lines want more than is there, and
the allocations hold as much again. -/
def Replans (w : World) (q : QuoteAggregate) (productId : Id) : Prop :=
  if wantedFor q.lines productId ≤ listedStock w.store.warehouses (findRow w.store.stock) productId then
    2 * wantedFor q.lines productId ≤ freedStock w q productId
  else
    freedStock w q productId = 2 * listedStock w.store.warehouses (findRow w.store.stock) productId

instance (w : World) (q : QuoteAggregate) (productId : Id) : Decidable (Replans w q productId) := by
  unfold Replans
  infer_instance

section Twice

variable {w w' w'' : World} {q q' q'' : QuoteAggregate} {k : ℤ}

theorem PlannedAgain.allocated (h : PlannedAgain k w q w' q') (hw : Plannable w) (hq : q ∈ w.store.quotes)
    (productId : Id) :
    allocatedFor q'.lines q'.allocations productId =
        min (wantedFor q.lines productId) (listedStock w.store.warehouses (findRow w.store.stock) productId) ∧
      backorderFor q'.backorders productId =
        max 0 (demandFor q.lines productId - allocatedFor q'.lines q'.allocations productId) := by
  obtain ⟨input, plan, hlines, hwarehouses, hstock, hplan, hallocations, hbackorders⟩ := h.plan
  have hdistinct : (input.lines.map (·.id)).Nodup := by
    rw [hlines]
    exact (hw.quotes q hq).1.distinct
  have htotal := allocatedFor_eq_min hdistinct hplan productId
  have hrest := backorderFor_eq_max hdistinct hplan productId
  rw [hlines, hwarehouses, hstock] at htotal
  rw [hlines] at hrest
  rw [h.lines, hallocations, hbackorders]
  exact ⟨htotal, hrest⟩

/-- What the next plan finds. -/
theorem PlannedAgain.stockLeft (h : PlannedAgain k w q w' q') (hw : Plannable w) (hq : q ∈ w.store.quotes)
    (productId : Id) :
    listedStock w'.store.warehouses (findRow w'.store.stock) productId =
      freedStock w q productId - allocatedFor q'.lines q'.allocations productId := by
  obtain ⟨input, plan, hlines, hwarehouses, hstock, hplan, hallocations, hbackorders⟩ := h.plan
  have hdistinct : (input.lines.map (·.id)).Nodup := by
    rw [hlines]
    exact (hw.quotes q hq).1.distinct
  obtain ⟨planning, hplanned, hsplits⟩ := planned_of_plan (oneProduct_of_distinct hdistinct) hplan
  have hgiven := hplanned.allocatedFor_eq hdistinct productId
  have hheld : ∀ key, 0 ≤ heldBy q.lines q.allocations key := fun key =>
    sumAt_nonneg (fun split hsplit => ((hw.quotes q hq).2 split hsplit).le) key
  have hrows : ∀ key, available id (findRow w'.store.stock key) =
      available id (freedRows (productByLineId q.lines) w.store.stock q.allocations key) -
        heldBy q.lines q'.allocations key := by
    intro key
    have hcapacity := hplanned.capacity key
    have hnonneg := hplanned.held_nonneg key
    rw [hlines, hsplits, ← hallocations] at hcapacity hnonneg
    rw [hstock] at hcapacity
    rw [h.rows]
    exact available_replanned hnonneg (hheld key) (fun row hrow => hw.reserved key row hrow) hcapacity
  rw [hlines, hsplits, ← hallocations, hwarehouses] at hgiven
  rw [h.lines, hgiven, freedStock, listedStock, listedStock, h.warehouses]
  simp only [hrows]
  refine eq_sub_of_add_eq ?_
  rw [← List.sum_map_add]
  simp only [sub_add_cancel]

/-- Two calls that go through. -/
theorem replans_iff (h : PlannedAgain k w q w' q') (h' : PlannedAgain k w' q' w'' q'') (hw : Plannable w)
    (hq : q ∈ w.store.quotes) :
    (∀ productId, backorderFor q''.backorders productId = backorderFor q'.backorders productId ∧
        allocatedFor q''.lines q''.allocations productId = allocatedFor q'.lines q'.allocations productId) ↔
      ∀ productId, Replans w q productId := by
  refine forall_congr' fun productId => ?_
  obtain ⟨hfirst, hopen⟩ := h.allocated hw hq productId
  obtain ⟨hsecond, hopen'⟩ := h'.allocated h.plannable h.mem productId
  have hnext := h.stockLeft hw hq productId
  rw [hnext, hfirst, h.lines] at hsecond
  have htotals : allocatedFor q''.lines q''.allocations productId = allocatedFor q'.lines q'.allocations productId ↔
      Replans w q productId := by
    rw [hsecond, hfirst]
    exact min_sub_min_iff
  rw [← htotals]
  refine and_iff_right_of_imp fun heq => ?_
  rw [hopen', hopen, heq, h.lines]

end Twice

/-- The world with another stock table. -/
def World.withStock (w : World) (stock : List StockLevel) : World :=
  { w with store := { w.store with stock } }

theorem plannable_of_fresh (options : Options) {w₀ : World} (hfresh : w₀.Fresh) (requests : List Request)
    {stock : List StockLevel} (hstock : ∀ row ∈ stock, 0 ≤ row.reserved) :
    Plannable ((serveAll options w₀ requests).withStock stock) := by
  have hindexed : (serveAll options w₀ requests).Indexed := hfresh.indexed.serveAll options requests
  have hproducts : ProductsKnown (serveAll options w₀ requests) :=
    Machine.invariant (I := ProductsKnown) (fun _ request h => h.serve options request) hfresh.productsKnown requests
  exact
    { indexed := ⟨hindexed.distinct, hindexed.fresh⟩
      quotes := wellPlanned_invariant.of_fresh hfresh requests
      products := hproducts
      reserved := fun key row hrow => hstock row (Table.mem_of_lookup hrow) }

theorem listedStock_nonneg (warehouses : List Warehouse) (rows : StockKey → Option StockLevel) (productId : Id) :
    0 ≤ listedStock warehouses rows productId := by
  refine List.sum_nonneg fun x hx => ?_
  obtain ⟨warehouseId, -, rfl⟩ := List.mem_map.mp hx
  exact available_nonneg _ _

/-- A product no line is for replans. -/
theorem replans_of_unwanted {w : World} {q : QuoteAggregate} {productId : Id}
    (h : ∀ line ∈ q.lines, line.productId ≠ productId) : Replans w q productId := by
  have hnone : linesOf q.lines productId = [] := by
    rw [linesOf, List.filter_eq_nil_iff]
    exact fun line hline hproduct => h line hline (of_decide_eq_true hproduct)
  have hwanted : wantedFor q.lines productId = 0 := by
    rw [wantedFor, hnone]
    rfl
  unfold Replans
  rw [hwanted, mul_zero, if_pos (listedStock_nonneg _ _ _)]
  exact listedStock_nonneg _ _ _

end DealFlow360
