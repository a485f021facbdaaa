import DealFlow360.PlanReserve
import Mathlib.Algebra.Group.Submonoid.BigOperators

/-!
# Planning with doubles

The service's sums are rounded, so what is proved of exact plans holds of its
plans where nothing has to be rounded: where all quantities are multiples of
one power of two, whole numbers above all, and none is more than `2 ^ 53` of
it. There a plan and its reservation come out as if they were computed exactly,
split by split and row by row; the backorders do too if no product is asked for
more than that altogether. So a plan is conservative and is reserved for
exactly what it holds. With other quantities neither is so: tenths are enough.

- `counted_of_plan` and `exact_of_plan`: with counted quantities the plan of
  doubles is the exact one, split by split, its backlog aside;
- `exact_of_plan_demand`: and the backlog with it, where no product is asked
  for more than a double counts;
- `release_double` and `reserve_double`: moving the reservations rounds
  nothing;
- `plan_conservative`, `plan_reserves`: the two statements about the program;
- `counted_of_reserved`: what a plan leaves is counted again, so runs of plans
  stay exact.

The proofs go step by step through the planner's loops, with the invariants of
the exact plan in hand: every intermediate quantity lies between two that are
exact.
-/

namespace DealFlow360

open Doubles Ledger Program

/-! ## What is counted in one unit -/

/-- A row whose quantities are counted in units of `2 ^ k`, and what is free of it too. -/
structure StockLevel.Counted (k : ℤ) (row : StockLevel) : Prop where
  onHand : Exact k row.quantityOnHand
  reserved : Exact k row.reserved
  free : Exact k (row.quantityOnHand - row.reserved)

instance (k : ℤ) (row : StockLevel) : Decidable (row.Counted k) :=
  decidable_of_iff (Exact k row.quantityOnHand ∧ Exact k row.reserved ∧ Exact k (row.quantityOnHand - row.reserved))
    ⟨fun h => ⟨h.1, h.2.1, h.2.2⟩, fun h => ⟨h.1, h.2, h.3⟩⟩

/-- A row goes on being counted while no more is reserved than was before, or than is on hand. -/
theorem StockLevel.Counted.reserve {k : ℤ} {row : StockLevel} (h : row.Counted k) {reserved : Num}
    (hgrid : reserved ∈ grid k) (hnonneg : 0 ≤ reserved)
    (hle : reserved ≤ row.reserved ∨ reserved ≤ row.quantityOnHand) :
    StockLevel.Counted k { row with reserved } where
  onHand := h.onHand
  reserved := by
    rcases hle with hle | hle
    · exact h.reserved.zero.between h.reserved hgrid hnonneg hle
    · exact h.onHand.zero.between h.onHand hgrid hnonneg hle
  free := by
    show Exact k (row.quantityOnHand - reserved)
    have hfree := sub_mem h.onHand.grid hgrid
    rcases hle with hle | hle
    · exact h.free.between h.onHand hfree (by linarith) (by linarith)
    · exact h.onHand.zero.between h.onHand hfree (by linarith) (by linarith)

/-- The rows that are found are counted. -/
def StockCounted (k : ℤ) (stock : List StockLevel) : Prop :=
  ∀ key, ∀ row ∈ findRow stock key, row.Counted k

instance (k : ℤ) (stock : List StockLevel) : Decidable (StockCounted k stock) :=
  decidable_of_iff (∀ row ∈ stock, ∀ found ∈ findRow stock row.key, found.Counted k)
    ⟨fun h key row hrow => h row (Table.mem_of_lookup hrow) row
      (by rwa [show row.key = key from Table.key_of_lookup hrow]),
      fun h row _ found hfound => h row.key found hfound⟩

/-- No product is asked for more than a double counts. -/
def DemandCounted (k : ℤ) (lines : List QuoteLine) : Prop :=
  ∀ line ∈ lines, ((linesOf lines line.productId).map fun other => |other.quantity|).sum ≤ 2 ^ 53 * 2 ^ k

instance (k : ℤ) (lines : List QuoteLine) : Decidable (DemandCounted k lines) :=
  inferInstanceAs (Decidable (∀ line ∈ lines, _))

/-- What the planner is asked, counted in units of `2 ^ k`. -/
structure PlanInput.Counted (k : ℤ) (input : PlanInput) : Prop where
  lines : ∀ line ∈ input.lines, Exact k line.quantity
  overrides : ∀ override ∈ input.overrides, override.quantity ∈ grid k
  stock : StockCounted k input.stock

theorem heldBy_mem_grid {k : ℤ} {allocations : List FulfillmentSplit}
    (h : ∀ split ∈ allocations, split.quantity ∈ grid k) (lines : List QuoteLine) (key : StockKey) :
    heldBy lines allocations key ∈ grid k := by
  refine list_sum_mem fun x hx => ?_
  obtain ⟨split, hsplit, rfl⟩ := List.mem_map.mp hx
  exact h split (List.mem_of_mem_filter hsplit)

theorem available_double {k : ℤ} {row : Option StockLevel} (h : ∀ found ∈ row, found.Counted k) :
    available double row = available id row := by
  cases row with
  | none => rfl
  | some row =>
      show max 0 (double (row.quantityOnHand - row.reserved)) = max 0 (row.quantityOnHand - row.reserved)
      rw [(h row rfl).free.double]

theorem available_mem_grid {k : ℤ} {row : Option StockLevel} (h : ∀ found ∈ row, found.Counted k) :
    available id row ∈ grid k := by
  cases row with
  | none => exact zero_mem _
  | some row =>
      show max 0 (row.quantityOnHand - row.reserved) ∈ grid k
      rcases max_choice 0 (row.quantityOnHand - row.reserved) with heq | heq
      · rw [heq]
        exact zero_mem _
      · rw [heq]
        exact (h row rfl).free.grid

/-! ## Planning -/

/-- What exact planning comes to on counted quantities. -/
structure Planning.Counted (k : ℤ) (input : PlanInput) (planning : Planning) : Prop where
  planned : Planned input planning
  splits : ∀ split ∈ planning.allocations, split.quantity ∈ grid k
  remaining : ∀ line ∈ input.lines, Exact k (planning.remainingOf line)

section Planning

variable {k : ℤ} {input : PlanInput} {planning : Planning} {line : QuoteLine}

/-- The rows the planner looks at go on being counted. -/
theorem Planning.Counted.row (hinput : input.Counted k) (h : planning.Counted k input) (key : StockKey) :
    ∀ row ∈ findRow planning.stockLeft key, row.Counted k := by
  intro row hrow
  have hlookup : findRow planning.stockLeft key =
      (findRow input.stock key).map (stockAccounts.credit (heldBy input.lines planning.allocations key)) :=
    h.planned.moved.rows key
  rw [show findRow planning.stockLeft key = some row from hrow] at hlookup
  obtain ⟨before, hbefore, rfl⟩ := Option.map_eq_some_iff.mp hlookup.symm
  have hstock := hinput.stock key before hbefore
  have hgrid := heldBy_mem_grid h.splits input.lines key
  have hcapacity := h.planned.capacity key
  rcases (h.planned.held_nonneg key).eq_or_lt with hnone | hsome
  · rw [← hnone, stockAccounts.credit_zero]
    exact hstock
  · obtain ⟨found, hfound, havailable⟩ := available_pos (hsome.trans_le hcapacity)
    obtain rfl := Option.some.inj (hbefore.symm.trans hfound)
    rw [havailable] at hcapacity
    exact
      { onHand := hstock.onHand
        reserved := hstock.reserved.between hstock.onHand (add_mem hstock.reserved.grid hgrid)
          (le_add_of_nonneg_right hsome.le) (by show before.reserved + _ ≤ _; linarith)
        free := hstock.free.zero.between hstock.free
          (sub_mem hstock.onHand.grid (add_mem hstock.reserved.grid hgrid))
          (by show 0 ≤ before.quantityOnHand - (before.reserved + _); linarith)
          (by show before.quantityOnHand - (before.reserved + _) ≤ _; linarith) }

/-- Taking no more than is available rounds nothing. -/
theorem allocate_double (hinput : input.Counted k) (h : planning.Counted k input) {warehouse : Warehouse}
    {quantity : Num} (hgrid : quantity ∈ grid k) (hpositive : 0 < quantity)
    (hle : quantity ≤ available id (findRow planning.stockLeft (warehouse.id, line.productId)))
    (isManualOverride : Bool) :
    planning.allocate double input line warehouse quantity isManualOverride =
      planning.allocate id input line warehouse quantity isManualOverride := by
  obtain ⟨row, hrow, havailable⟩ := available_pos (hpositive.trans_le hle)
  rw [havailable] at hle
  have hcounted := h.row hinput _ row hrow
  have hsum : double (row.reserved + quantity) = row.reserved + quantity :=
    (hcounted.reserved.between hcounted.onHand (add_mem hcounted.reserved.grid hgrid)
      (le_add_of_nonneg_right hpositive.le) (by linarith)).double
  have hupdate : updateRow (warehouse.id, line.productId)
      (fun row => { row with reserved := double (row.reserved + quantity) }) planning.stockLeft =
        updateRow (warehouse.id, line.productId)
          (fun row => { row with reserved := row.reserved + quantity }) planning.stockLeft := by
    refine Table.modifyFirst_congr fun found hfound => ?_
    obtain rfl := Option.some.inj (hrow.symm.trans hfound)
    rw [hsum]
  unfold Planning.allocate
  rw [hupdate]
  rfl

theorem Planning.Counted.allocate (h : planning.Counted k input) (hlines : OneProduct input.lines)
    (hline : line ∈ input.lines) {warehouse : Warehouse} (hwarehouse : warehouse ∈ input.warehouses)
    {quantity : Num} (hgrid : quantity ∈ grid k) (hpositive : 0 < quantity)
    (hle : quantity ≤ available id (findRow planning.stockLeft (warehouse.id, line.productId)))
    (isManualOverride : Bool) :
    Planning.Counted k input (planning.allocate id input line warehouse quantity isManualOverride) where
  planned := h.planned.allocate hlines hline hwarehouse hpositive hle
  splits := by
    intro split hsplit
    rcases List.mem_append.mp hsplit with hsplit | hsplit
    · exact h.splits split hsplit
    · obtain rfl := List.mem_singleton.mp hsplit
      exact hgrid
  remaining := h.remaining

theorem Planning.Counted.setRemaining (h : planning.Counted k input) {remaining : Num}
    (hremaining : Exact k remaining) :
    Planning.Counted k input (planning.setRemaining line remaining) where
  planned := h.planned.setRemaining remaining
  splits := h.splits
  remaining other hother := by
    rw [remainingOf_setRemaining]
    split
    · exact hremaining
    · exact h.remaining other hother

/-! ### Overrides -/

theorem applyOverride_double (hinput : input.Counted k) (h : planning.Counted k input)
    {override : FulfillmentOverride} (hgrid : override.quantity ∈ grid k) :
    planning.applyOverride double input override = planning.applyOverride id input override := by
  unfold Planning.applyOverride
  cases hline : input.lines.find? fun item => item.id = override.quoteLineId with
  | none => rfl
  | some line =>
      by_cases hpositive : override.quantity ≤ 0
      · simp only [if_pos hpositive]
      · cases hwarehouse : input.warehouses.find? fun item => item.id = override.warehouseId with
        | none => rfl
        | some warehouse =>
            simp only [if_neg hpositive, available_double (h.row hinput _)]
            by_cases hmore : planning.remainingOf line < override.quantity
            · simp only [if_pos hmore]
            · by_cases hspare : (findRow planning.stockLeft (warehouse.id, line.productId)).isNone ∨
                  available id (findRow planning.stockLeft (warehouse.id, line.productId)) < override.quantity
              · simp only [if_neg hmore, if_pos hspare]
              · have hpositive := not_le.mp hpositive
                have hremaining := h.remaining line (List.mem_of_find?_eq_some hline)
                have hleft : Exact k (planning.remainingOf line - override.quantity) :=
                  hremaining.zero.between hremaining (sub_mem hremaining.grid hgrid)
                    (sub_nonneg.mpr (not_lt.mp hmore)) (sub_le_self _ hpositive.le)
                simp only [if_neg hmore, if_neg hspare, hleft.double, id_eq]
                rw [allocate_double hinput h hgrid hpositive (not_lt.mp (not_or.mp hspare).2)]

theorem Planning.Counted.applyOverride (h : planning.Counted k input) (hlines : OneProduct input.lines)
    {override : FulfillmentOverride} (hgrid : override.quantity ∈ grid k) {next : Planning}
    (hstep : planning.applyOverride id input override = .ok next) : next.Counted k input := by
  obtain ⟨line, hline, warehouse, hwarehouse, -, -, hpositive, hmore, hspare, rfl⟩ := applyOverride_eq_ok hstep
  have hremaining := h.remaining line hline
  refine (h.allocate hlines hline hwarehouse hgrid hpositive hspare true).setRemaining ?_
  exact hremaining.zero.between hremaining (sub_mem hremaining.grid hgrid) (sub_nonneg.mpr hmore)
    (sub_le_self _ hpositive.le)

theorem applyOverrides_double (hinput : input.Counted k) (hlines : OneProduct input.lines)
    {overrides : List FulfillmentOverride} {planning : Planning} (h : planning.Counted k input)
    (hgrid : ∀ override ∈ overrides, override.quantity ∈ grid k) :
    overrides.foldlM (Planning.applyOverride double input) planning =
      overrides.foldlM (Planning.applyOverride id input) planning :=
  except_foldlM_congr (Planning.Counted k input) overrides
    (fun override hoverride _ hcounted => applyOverride_double hinput hcounted (hgrid override hoverride))
    (fun override hoverride _ _ hcounted hstep => hcounted.applyOverride hlines (hgrid override hoverride) hstep)
    planning h

/-! ### Lines -/

/-- A line being filled: what remains of it is counted too. -/
def LoopCounted (k : ℤ) (input : PlanInput) (loop : Planning × Num) : Prop :=
  loop.1.Counted k input ∧ Exact k loop.2

/-- What a warehouse gives is counted, and what remains then is. -/
theorem takes_counted (hinput : input.Counted k) {loop : Planning × Num} (h : LoopCounted k input loop)
    {warehouse : Warehouse}
    (htake : ¬min loop.2 (available id (findRow loop.1.stockLeft (warehouse.id, line.productId))) ≤ 0) :
    min loop.2 (available id (findRow loop.1.stockLeft (warehouse.id, line.productId))) ∈ grid k ∧
      Exact k (loop.2 - min loop.2 (available id (findRow loop.1.stockLeft (warehouse.id, line.productId)))) := by
  have hgrid : min loop.2 (available id (findRow loop.1.stockLeft (warehouse.id, line.productId))) ∈ grid k := by
    rcases min_choice loop.2 (available id (findRow loop.1.stockLeft (warehouse.id, line.productId))) with heq | heq
    · rw [heq]
      exact h.2.grid
    · rw [heq]
      exact available_mem_grid (h.1.row hinput _)
  exact ⟨hgrid, h.2.zero.between h.2 (sub_mem h.2.grid hgrid) (sub_nonneg.mpr (min_le_left _ _))
    (sub_le_self _ (not_le.mp htake).le)⟩

theorem takeFrom_double (hinput : input.Counted k) {loop : Planning × Num} (h : LoopCounted k input loop)
    (warehouse : Warehouse) :
    Planning.takeFrom double input line loop warehouse = Planning.takeFrom id input line loop warehouse := by
  unfold Planning.takeFrom
  simp only [available_double (h.1.row hinput _), id_eq]
  split
  · rfl
  · split
    · rfl
    · rename_i htake
      obtain ⟨hgrid, hleft⟩ := takes_counted hinput h htake
      rw [hleft.double, allocate_double hinput h.1 hgrid (not_le.mp htake) (min_le_right _ _)]

theorem LoopCounted.takeFrom (hinput : input.Counted k) (hlines : OneProduct input.lines)
    (hline : line ∈ input.lines) {loop : Planning × Num} (h : LoopCounted k input loop) {warehouse : Warehouse}
    (hwarehouse : warehouse ∈ input.warehouses) :
    LoopCounted k input (Planning.takeFrom id input line loop warehouse) := by
  unfold Planning.takeFrom
  dsimp only [id_eq]
  split
  · exact h
  · split
    · exact h
    · rename_i htake
      obtain ⟨hgrid, hleft⟩ := takes_counted hinput h htake
      exact ⟨h.1.allocate hlines hline hwarehouse hgrid (not_le.mp htake) (min_le_right _ _) false, hleft⟩

theorem takeAll_double (hinput : input.Counted k) (hlines : OneProduct input.lines) (hline : line ∈ input.lines)
    {warehouses : List Warehouse} {loop : Planning × Num} (h : LoopCounted k input loop)
    (hlisted : ∀ warehouse ∈ warehouses, warehouse ∈ input.warehouses) :
    warehouses.foldl (Planning.takeFrom double input line) loop =
        warehouses.foldl (Planning.takeFrom id input line) loop ∧
      LoopCounted k input (warehouses.foldl (Planning.takeFrom id input line) loop) :=
  foldl_congr_invariant (LoopCounted k input) warehouses
    (fun warehouse _ _ hcounted => takeFrom_double hinput hcounted warehouse)
    (fun warehouse hwarehouse _ hcounted => hcounted.takeFrom hinput hlines hline (hlisted warehouse hwarehouse))
    loop h

theorem byAvailability_double (hinput : input.Counted k) (h : planning.Counted k input) (ranked : List Warehouse) :
    planning.byAvailability double ranked line = planning.byAvailability id ranked line := by
  unfold Planning.byAvailability
  simp only [available_double (h.row hinput _)]

/-- What filling a line comes to, before what remains of it is added to the backlog. -/
def Planning.filled (fl : Rounding) (input : PlanInput) (planning : Planning) (line : QuoteLine) : Planning × Num :=
  (planning.byAvailability fl input.ranked line).foldl (Planning.takeFrom fl input line)
    (planning, planning.remainingOf line)

theorem fillLine_eq (fl : Rounding) (planning : Planning) (line : QuoteLine) :
    planning.fillLine fl input input.ranked line =
      ((planning.filled fl input line).1.setRemaining line (planning.filled fl input line).2).addBackorder fl line
        (planning.filled fl input line).2 := rfl

theorem filled_double (hinput : input.Counted k) (hlines : OneProduct input.lines) (hline : line ∈ input.lines)
    (h : planning.Counted k input) :
    planning.filled double input line = planning.filled id input line ∧
      LoopCounted k input (planning.filled id input line) := by
  unfold Planning.filled
  rw [byAvailability_double hinput h]
  exact takeAll_double hinput hlines hline ⟨h, h.remaining line hline⟩
    fun warehouse hwarehouse => mem_ranked.mp (mem_byAvailability.mp hwarehouse)

theorem Planning.Counted.fillLine (hinput : input.Counted k) (hlines : OneProduct input.lines)
    (hline : line ∈ input.lines) (h : planning.Counted k input) :
    Planning.Counted k input (planning.fillLine id input input.ranked line) := by
  obtain ⟨-, hplanning, hremaining⟩ := filled_double hinput hlines hline h
  have hset := @Planning.Counted.setRemaining _ _ _ line hplanning _ hremaining
  exact ⟨hset.planned.addBackorder _, hset.splits, hset.remaining⟩

/-! ### The backlog -/

/-- The same plan so far with another backlog, which planning writes and never reads. -/
def Planning.withBacklog (planning : Planning) (backlog : List (Id × Num)) : Planning :=
  { planning with remainingByProduct := backlog }

theorem takeFrom_withBacklog (fl : Rounding) (loop : Planning × Num) (backlog : List (Id × Num))
    (warehouse : Warehouse) :
    Planning.takeFrom fl input line (loop.1.withBacklog backlog, loop.2) warehouse =
      ((Planning.takeFrom fl input line loop warehouse).1.withBacklog backlog,
        (Planning.takeFrom fl input line loop warehouse).2) := by
  obtain ⟨planning, remaining⟩ := loop
  unfold Planning.takeFrom
  dsimp only [Planning.withBacklog]
  split
  · rfl
  · split
    · rfl
    · rfl

theorem filled_withBacklog (fl : Rounding) (planning : Planning) (backlog : List (Id × Num)) (line : QuoteLine) :
    (planning.withBacklog backlog).filled fl input line =
      ((planning.filled fl input line).1.withBacklog backlog, (planning.filled fl input line).2) := by
  have hfold : ∀ (warehouses : List Warehouse) (loop : Planning × Num),
      warehouses.foldl (Planning.takeFrom fl input line) (loop.1.withBacklog backlog, loop.2) =
        ((warehouses.foldl (Planning.takeFrom fl input line) loop).1.withBacklog backlog,
          (warehouses.foldl (Planning.takeFrom fl input line) loop).2) := by
    intro warehouses
    induction warehouses with
    | nil => exact fun _ => rfl
    | cons warehouse warehouses ih =>
        intro loop
        rw [List.foldl_cons, List.foldl_cons, takeFrom_withBacklog]
        exact ih _
  exact hfold _ (planning, planning.remainingOf line)

/-- Filling the lines with doubles, the plan is the exact one, its backlog aside. -/
theorem fillLines_withBacklog (hinput : input.Counted k) (hlines : OneProduct input.lines) :
    ∀ {lines : List QuoteLine} {planning : Planning} (backlog : List (Id × Num)), planning.Counted k input →
      (∀ line ∈ lines, line ∈ input.lines) →
        ∃ backlog', lines.foldl (Planning.fillLine double input input.ranked) (planning.withBacklog backlog) =
          (lines.foldl (Planning.fillLine id input input.ranked) planning).withBacklog backlog'
  | [], _, backlog, _, _ => ⟨backlog, rfl⟩
  | line :: lines, planning, backlog, h, hlisted => by
      have hline := hlisted line List.mem_cons_self
      rw [List.foldl_cons, List.foldl_cons, fillLine_eq, filled_withBacklog, (filled_double hinput hlines hline h).1]
      exact fillLines_withBacklog hinput hlines _ (h.fillLine hinput hlines hline)
        fun other hother => hlisted other (List.mem_cons_of_mem _ hother)

/-- So is what the lines are given. -/
theorem allocations_double (hinput : input.Counted k) (hlines : OneProduct input.lines)
    (h : planning.Counted k input) :
    (input.lines.foldl (Planning.fillLine double input input.ranked) planning).allocations =
        (input.lines.foldl (Planning.fillLine id input input.ranked) planning).allocations ∧
      Planning.Counted k input (input.lines.foldl (Planning.fillLine id input input.ranked) planning) := by
  obtain ⟨backlog, hfilled⟩ := fillLines_withBacklog hinput hlines planning.remainingByProduct h fun line hline => hline
  have hsame := congrArg Planning.allocations hfilled
  refine ⟨hsame, ?_⟩
  exact List.foldlRecOn (motive := Planning.Counted k input) input.lines _ h
    fun _ hcounted line hline => hcounted.fillLine hinput hlines hline

theorem Planning.Counted.start (hinput : input.Counted k) :
    Planning.Counted k input { stockLeft := input.stock } where
  planned := .start
  splits _ hsplit := absurd hsplit List.not_mem_nil
  remaining := hinput.lines

/-- With counted quantities the overrides leave what exact ones do, and the lines are filled from there. -/
theorem counted_of_plan (hinput : input.Counted k) (hlines : OneProduct input.lines) {plan : FulfillmentPlan}
    (h : planFulfillment double input = .ok plan) :
    ∃ overridden, overridden.Counted k input ∧
      input.overrides.foldlM (Planning.applyOverride id input) { stockLeft := input.stock } = .ok overridden ∧
        plan = (input.lines.foldl (Planning.fillLine double input input.ranked) overridden).finish double input := by
  obtain ⟨overridden, hoverrides, hplan⟩ := planFulfillment_runs h
  rw [applyOverrides_double hinput hlines (.start hinput) hinput.overrides] at hoverrides
  refine ⟨overridden, ?_, hoverrides, hplan⟩
  exact except_foldlM_invariant (Planning.Counted k input) input.overrides
    (fun override hoverride planning next hcounted hstep =>
      hcounted.applyOverride hlines (hinput.overrides override hoverride) hstep) _ _ (.start hinput) hoverrides

theorem planFulfillment_of_overridden {fl : Rounding} {overridden : Planning}
    (h : input.overrides.foldlM (Planning.applyOverride fl input) { stockLeft := input.stock } = .ok overridden) :
    planFulfillment fl input =
      .ok ((input.lines.foldl (Planning.fillLine fl input input.ranked) overridden).finish fl input) := by
  unfold planFulfillment
  rw [h]
  rfl

/-- A plan of counted quantities is the exact one, split by split. -/
theorem exact_of_plan (hinput : input.Counted k) (hlines : OneProduct input.lines) {plan : FulfillmentPlan}
    (h : planFulfillment double input = .ok plan) :
    ∃ exact, planFulfillment id input = .ok exact ∧ exact.allocations = plan.allocations := by
  obtain ⟨overridden, hcounted, hoverrides, rfl⟩ := counted_of_plan hinput hlines h
  exact ⟨_, planFulfillment_of_overridden hoverrides, (allocations_double hinput hlines hcounted).1.symm⟩

/-- What some of the lines of a product leave open is counted. -/
theorem Filled.backlog_exact {done : List QuoteLine} (h : Filled input done planning)
    (hcounted : planning.Counted k input) (hdemand : DemandCounted k input.lines)
    (hdone : ∃ rest, done ++ rest = input.lines) (hline : line ∈ done) :
    Exact k (planning.backlogOf line.productId) := by
  obtain ⟨rest, hdone⟩ := hdone
  have hmem : ∀ other ∈ linesOf done line.productId, other ∈ input.lines := by
    intro other hother
    rw [← hdone]
    exact List.mem_append_left _ (List.mem_of_mem_filter hother)
  have hopen : ∀ other ∈ linesOf done line.productId, |planning.remainingOf other| ≤ |other.quantity| := by
    intro other hother
    have hsplit := h.shared.split other (hmem other hother)
    have hshare := h.shared.share other (hmem other hother)
    have hnonneg := allocatedTo_nonneg (fun split hsplit => (h.shared.planned.splits split hsplit).positive) other.id
    rcases le_total other.quantity 0 with hnone | hsome
    · rw [max_eq_left hnone] at hshare
      rw [show planning.remainingOf other = other.quantity by linarith]
    · rw [max_eq_right hsome] at hshare
      rw [abs_of_nonneg hsome, abs_of_nonneg (by linarith)]
      linarith
  have hall : ((linesOf done line.productId).map fun other => |other.quantity|).sum ≤ 2 ^ 53 * 2 ^ k := by
    refine le_trans ?_ (hdemand line (by rw [← hdone]; exact List.mem_append_left _ hline))
    rw [← hdone, linesOf, linesOf, List.filter_append, List.map_append, List.sum_append]
    refine le_add_of_nonneg_right (List.sum_nonneg fun x hx => ?_)
    obtain ⟨other, -, rfl⟩ := List.mem_map.mp hx
    exact abs_nonneg _
  have hhigh := List.sum_le_sum fun other hother => (le_abs_self _).trans (hopen other hother)
  have hlow := List.sum_le_sum fun other hother => neg_le.mp ((neg_le_abs _).trans (hopen other hother))
  have hneg : ((linesOf done line.productId).map fun other => -|other.quantity|).sum =
      -((linesOf done line.productId).map fun other => |other.quantity|).sum := by
    rw [List.sum_neg, List.map_map]
    rfl
  rw [hneg] at hlow
  rw [h.backlog]
  exact
    { unit := (hcounted.remaining line (by rw [← hdone]; exact List.mem_append_left _ hline)).unit
      grid := by
        refine list_sum_mem fun x hx => ?_
        obtain ⟨other, hother, rfl⟩ := List.mem_map.mp hx
        exact (hcounted.remaining other (hmem other hother)).grid
      bound := abs_le.mpr ⟨(neg_le_neg hall).trans hlow, hhigh.trans hall⟩ }

theorem fillLine_double (hdistinct : (input.lines.map (·.id)).Nodup) (hinput : input.Counted k)
    (hdemand : DemandCounted k input.lines) {done : List QuoteLine} (h : Filled input done planning)
    (hcounted : planning.Counted k input) (hline : line ∈ input.lines) (hnew : ∀ other ∈ done, line.id ≠ other.id)
    (hdone : ∃ rest, (done ++ [line]) ++ rest = input.lines) :
    planning.fillLine double input input.ranked line = planning.fillLine id input input.ranked line := by
  have hlines := oneProduct_of_distinct hdistinct
  have hbacklog := (h.fillLine hdistinct hline hnew).backlog_exact (hcounted.fillLine hinput hlines hline) hdemand
    hdone (List.mem_append_right _ List.mem_cons_self)
  rw [fillLine_eq, backlogOf_addBackorder, if_pos rfl] at hbacklog
  rw [fillLine_eq, fillLine_eq, (filled_double hinput hlines hline hcounted).1]
  unfold Planning.addBackorder
  unfold Planning.backlogOf at hbacklog
  simp only [hbacklog.double, id_eq]

theorem fillLines_double_exact (hdistinct : (input.lines.map (·.id)).Nodup) (hinput : input.Counted k)
    (hdemand : DemandCounted k input.lines) :
    ∀ {rest done : List QuoteLine} {planning : Planning}, Filled input done planning → planning.Counted k input →
      done ++ rest = input.lines →
        rest.foldl (Planning.fillLine double input input.ranked) planning =
          rest.foldl (Planning.fillLine id input input.ranked) planning
  | [], _, _, _, _, _ => by rw [List.foldl_nil, List.foldl_nil]
  | line :: rest, done, planning, h, hcounted, hlines => by
      have hline : line ∈ input.lines := by
        rw [← hlines]
        exact List.mem_append_right _ List.mem_cons_self
      have hnew : ∀ other ∈ done, line.id ≠ other.id := by
        intro other hother hid
        have hids := hdistinct
        rw [← hlines, List.map_append, List.nodup_append] at hids
        exact hids.2.2 other.id (List.mem_map_of_mem hother) line.id (List.mem_map_of_mem List.mem_cons_self) hid.symm
      have hsplit : (done ++ [line]) ++ rest = input.lines := by rw [List.append_assoc]; exact hlines
      rw [List.foldl_cons, List.foldl_cons,
        fillLine_double hdistinct hinput hdemand h hcounted hline hnew ⟨rest, hsplit⟩]
      exact fillLines_double_exact hdistinct hinput hdemand (h.fillLine hdistinct hline hnew)
        (hcounted.fillLine hinput (oneProduct_of_distinct hdistinct) hline) hsplit

/-- Where no product is asked for more than a double counts, the backorders are the exact ones too. -/
theorem exact_of_plan_demand (hdistinct : (input.lines.map (·.id)).Nodup) (hinput : input.Counted k)
    (hdemand : DemandCounted k input.lines) {plan : FulfillmentPlan} (h : planFulfillment double input = .ok plan) :
    ∃ exact, planFulfillment id input = .ok exact ∧ exact.allocations = plan.allocations ∧
      exact.backorders = plan.backorders := by
  obtain ⟨overridden, hcounted, hoverrides, rfl⟩ := counted_of_plan hinput (oneProduct_of_distinct hdistinct) h
  have hstart := filled_of_overrides hdistinct hoverrides
  refine ⟨_, planFulfillment_of_overridden hoverrides, ?_⟩
  rw [fillLines_double_exact hdistinct hinput hdemand hstart hcounted (List.nil_append _)]
  exact ⟨rfl, rfl⟩

end Planning

/-! ## Reserving -/

/-- What the rows are reserved for and have on hand is counted, and not less than nothing is reserved. -/
def RowsCounted (k : ℤ) (stock : List StockLevel) : Prop :=
  ∀ key row, findRow stock key = some row → 0 ≤ row.reserved ∧ Exact k row.reserved ∧ Exact k row.quantityOnHand

section Reserving

variable {k : ℤ} {productOf : Id → Option Id} {stock stock' : List StockLevel} {split : FulfillmentSplit}

theorem mutateReserved_double {delta : Num}
    (h : ∀ key row, splitAccount productOf split = some key → findRow stock key = some row →
      Exact k (row.reserved + delta)) :
    mutateReserved double productOf stock split delta = mutateReserved id productOf stock split delta := by
  unfold mutateReserved
  split
  · rfl
  · rename_i hbackorder
    cases hrow : splitRow productOf stock split with
    | none => rfl
    | some row =>
        obtain ⟨productId, hproduct, hfound⟩ := Option.bind_eq_some_iff.mp hrow
        have hkey : row.key = (split.warehouseId, productId) := Table.key_of_lookup hfound
        have haccount : splitAccount productOf split = some row.key := by
          rw [splitAccount, if_neg hbackorder, hproduct, hkey]
          rfl
        refine congrArg Except.ok (Table.modifyFirst_congr fun found hfirst => ?_)
        rw [(h row.key found haccount hfirst).double]
        rfl

/-- A mutation that leaves its row counted leaves all of them so. -/
theorem RowsCounted.mutate {delta : Num} (hrows : RowsCounted k stock)
    (h : ∀ key row, splitAccount productOf split = some key → findRow stock key = some row →
      Exact k (row.reserved + delta))
    (hmutated : mutateReserved id productOf stock split delta = .ok stock') : RowsCounted k stock' := by
  intro key row hrow
  obtain ⟨-, hlookup⟩ := mutateReserved_rows hmutated
  rw [hlookup] at hrow
  obtain ⟨before, hbefore, rfl⟩ := Option.map_eq_some_iff.mp hrow
  obtain ⟨hnonneg, hreserved, honHand⟩ := hrows key before hbefore
  split
  · rename_i haccount
    have hmoved := h key before haccount hbefore
    refine ⟨le_max_left _ _, ?_, honHand⟩
    show Exact k (max 0 (before.reserved + delta))
    rcases max_choice 0 (before.reserved + delta) with heq | heq
    · rw [heq]
      exact hreserved.zero
    · rw [heq]
      exact hmoved
  · exact ⟨hnonneg, hreserved, honHand⟩

/-- A counted split is released without rounding. -/
theorem RowsCounted.released (hrows : RowsCounted k stock) (hnonneg : 0 ≤ split.quantity)
    (hquantity : Exact k split.quantity) {key : Id × Id} {row : StockLevel} (hrow : findRow stock key = some row) :
    Exact k (row.reserved + -split.quantity) := by
  obtain ⟨hreserved, hexact, -⟩ := hrows key row hrow
  exact hquantity.neg.between hexact (add_mem hexact.grid (neg_mem hquantity.grid)) (by linarith) (by linarith)

/-- Releasing counted splits rounds nothing. -/
theorem release_double {previous : List FulfillmentSplit}
    (hprevious : ∀ split ∈ previous, 0 ≤ split.quantity ∧ Exact k split.quantity) (hrows : RowsCounted k stock) :
    previous.foldlM (fun stock split => mutateReserved double productOf stock split (-split.quantity)) stock =
        previous.foldlM (fun stock split => mutateReserved id productOf stock split (-split.quantity)) stock ∧
      ∀ stock', previous.foldlM (fun stock split => mutateReserved id productOf stock split (-split.quantity)) stock =
        .ok stock' → RowsCounted k stock' := by
  have hmoved : ∀ split ∈ previous, ∀ stock, RowsCounted k stock → ∀ key row,
      splitAccount productOf split = some key → findRow stock key = some row →
        Exact k (row.reserved + -split.quantity) := fun split hsplit stock hrows key row _ hrow =>
    hrows.released (hprevious split hsplit).1 (hprevious split hsplit).2 hrow
  have hkeep : ∀ split ∈ previous, ∀ stock stock', RowsCounted k stock →
      mutateReserved id productOf stock split (-split.quantity) = .ok stock' → RowsCounted k stock' :=
    fun split hsplit stock stock' hrows hstep => hrows.mutate (hmoved split hsplit stock hrows) hstep
  refine ⟨except_foldlM_congr (RowsCounted k) previous (fun split hsplit stock hrows => ?_) hkeep stock hrows,
    fun stock' h => except_foldlM_invariant (RowsCounted k) previous hkeep stock stock' hrows h⟩
  exact mutateReserved_double (hmoved split hsplit stock hrows)

/-- Reserving counted splits that have room rounds nothing. -/
theorem reserve_double : ∀ {next : List FulfillmentSplit} {stock : List StockLevel},
    (∀ split ∈ next, 0 < split.quantity) → (∀ split ∈ next, split.isBackorder = false) →
      (∀ split ∈ next, split.quantity ∈ grid k) → RowsCounted k stock →
        Room (sumAt (splitAccount productOf) (·.quantity) next) stock →
          next.foldlM (reserveNext double productOf) stock = next.foldlM (reserveNext id productOf) stock
  | [], _, _, _, _, _, _ => by rw [List.foldlM_nil, List.foldlM_nil]
  | split :: next, stock, hpositive, hshipped, hgrid, hrows, hroom => by
      have hquantity := hpositive split List.mem_cons_self
      have hmoved : ∀ key row, splitAccount productOf split = some key → findRow stock key = some row →
          Exact k (row.reserved + split.quantity) := by
        intro key row haccount hrow
        obtain ⟨hreserved, hexact, honHand⟩ := hrows key row hrow
        have hspace := hroom key row hrow
        have hrest : 0 ≤ sumAt (splitAccount productOf) (·.quantity) next key :=
          sumAt_nonneg (fun other hother => (hpositive other (List.mem_cons_of_mem _ hother)).le) key
        rw [sumAt_cons, if_pos haccount] at hspace
        have hle := hspace (by linarith)
        exact hexact.between honHand (add_mem hexact.grid (hgrid split List.mem_cons_self)) (by linarith) (by linarith)
      have hmutate := mutateReserved_double hmoved
      rw [List.foldlM_cons, List.foldlM_cons]
      cases hstep : mutateReserved id productOf stock split split.quantity with
      | error e =>
          rw [hstep] at hmutate
          unfold reserveNext
          rw [hmutate, hstep]
          rfl
      | ok middle =>
          rw [hstep] at hmutate
          obtain ⟨-, -, hroom', hfits⟩ :=
            hroom.mutate hpositive (fun key row hrow => (hrows key row hrow).1) hstep
          have hrows' := hrows.mutate hmoved hstep
          have hfirst := hshipped split List.mem_cons_self
          rw [reserveNext_eq_ok hfirst hstep fun key row haccount hrow =>
              (hfits key row haccount hrow).trans (le_add_of_nonneg_right stockTolerance_nonneg),
            reserveNext_eq_ok hfirst hmutate fun key row haccount hrow => by
              have hraised := double_mono (le_add_of_nonneg_right stockTolerance_nonneg :
                row.quantityOnHand ≤ row.quantityOnHand + stockTolerance)
              rw [(hrows' key row hrow).2.2.double] at hraised
              exact (hfits key row haccount hrow).trans hraised]
          exact reserve_double (fun other hother => hpositive other (List.mem_cons_of_mem _ hother))
            (fun other hother => hshipped other (List.mem_cons_of_mem _ hother))
            (fun other hother => hgrid other (List.mem_cons_of_mem _ hother)) hrows' hroom'

end Reserving

/-! ## Plans and reservations -/

section Plan

variable {k : ℤ} {input : PlanInput} {previous : List FulfillmentSplit} {plan : FulfillmentPlan}

theorem PlanInput.Counted.rows (hinput : input.Counted k)
    (hreserved : ∀ key row, findRow input.stock key = some row → 0 ≤ row.reserved) : RowsCounted k input.stock := by
  intro key row hrow
  have hcounted := hinput.stock key row hrow
  exact ⟨hreserved key row hrow, hcounted.reserved, hcounted.onHand⟩

/-- What exact planning comes to on counted quantities is counted. -/
theorem counted_of_exact_plan (hinput : input.Counted k) (hlines : OneProduct input.lines)
    (h : planFulfillment double input = .ok plan) :
    ∃ planning : Planning, planning.Counted k input ∧ planning.allocations = plan.allocations := by
  obtain ⟨overridden, hcounted, -, rfl⟩ := counted_of_plan hinput hlines h
  obtain ⟨hallocations, hfilled⟩ := allocations_double hinput hlines hcounted
  exact ⟨_, hfilled, hallocations.symm⟩

/-- Reserving a plan of counted quantities in place of counted splits rounds nothing. -/
theorem reserveStock_double (hinput : input.Counted k) (hlines : OneProduct input.lines)
    (hreserved : ∀ key row, findRow input.stock key = some row → 0 ≤ row.reserved)
    (hprevious : ∀ split ∈ previous, 0 ≤ split.quantity ∧ Exact k split.quantity)
    (h : planFulfillment double input = .ok plan) :
    reserveStock double (productByLineId input.lines) input.stock previous plan.allocations =
      reserveStock id (productByLineId input.lines) input.stock previous plan.allocations := by
  obtain ⟨planning, hcounted, hallocations⟩ := counted_of_exact_plan hinput hlines h
  obtain ⟨hrelease, hrows⟩ := @release_double _ (productByLineId input.lines) _ _ hprevious
    (hinput.rows hreserved)
  unfold reserveStock
  rw [hrelease, ← hallocations]
  cases hreleased : previous.foldlM (fun stock split =>
      mutateReserved id (productByLineId input.lines) stock split (-split.quantity)) input.stock with
  | error e => rfl
  | ok middle =>
      obtain ⟨-, hfreed⟩ := release_rows (fun split hsplit => (hprevious split hsplit).1) hreserved hreleased
      exact reserve_double (fun split hsplit => (hcounted.planned.splits split hsplit).positive)
        (fun split hsplit => (hcounted.planned.splits split hsplit).shipped) hcounted.splits (hrows middle hreleased)
        (hcounted.planned.room (fun split hsplit => (hprevious split hsplit).1) hreserved hfreed)

/-- What a plan of counted quantities leaves is counted. -/
theorem counted_of_reserved (hinput : input.Counted k) (hlines : OneProduct input.lines)
    (hreserved : ∀ key row, findRow input.stock key = some row → 0 ≤ row.reserved)
    (hprevious : ∀ split ∈ previous, 0 ≤ split.quantity ∧ Exact k split.quantity)
    (h : planFulfillment double input = .ok plan) {stock' : List StockLevel}
    (hrows : ∀ key, findRow stock' key = (findRow input.stock key).map fun row =>
      stockAccounts.credit (heldBy input.lines plan.allocations key)
        (released (heldBy input.lines previous key) row)) :
    (∀ split ∈ plan.allocations, Exact k split.quantity) ∧ StockCounted k stock' := by
  obtain ⟨planning, hcounted, hallocations⟩ := counted_of_exact_plan hinput hlines h
  rw [← hallocations] at hrows ⊢
  constructor
  · intro split hsplit
    obtain ⟨row, -, -, hrow, hle⟩ := hcounted.planned.drawn hlines split hsplit
    have hfree := (hinput.stock row.key row hrow).free
    exact hfree.zero.between hfree (hcounted.splits split hsplit) (hcounted.planned.splits split hsplit).positive.le hle
  · intro key row hrow
    obtain ⟨before, hbefore, rfl⟩ := Option.map_eq_some_iff.mp ((hrows key).symm.trans hrow)
    have hcountedRow := hinput.stock key before hbefore
    have hnow := hreserved key before hbefore
    have hheld : 0 ≤ heldBy input.lines previous key :=
      sumAt_nonneg (fun split hsplit => (hprevious split hsplit).1) key
    have hheldGrid := heldBy_mem_grid (fun split hsplit => (hprevious split hsplit).2.grid) input.lines key
    have htakenGrid := heldBy_mem_grid hcounted.splits input.lines key
    have htaken := hcounted.planned.held_nonneg key
    have hreleased : max 0 (before.reserved - heldBy input.lines previous key) ≤ before.reserved :=
      max_le hnow (sub_le_self _ hheld)
    have hreleasedGrid : max 0 (before.reserved - heldBy input.lines previous key) ∈ grid k := by
      rcases max_choice 0 (before.reserved - heldBy input.lines previous key) with heq | heq
      · rw [heq]
        exact zero_mem _
      · rw [heq]
        exact sub_mem hcountedRow.reserved.grid hheldGrid
    refine hcountedRow.reserve (add_mem hreleasedGrid htakenGrid) (add_nonneg (le_max_left _ _) htaken) ?_
    rcases htaken.eq_or_lt with hnone | hsome
    · left
      rw [← hnone, add_zero]
      exact hreleased
    · right
      have hcapacity := hcounted.planned.capacity key
      obtain ⟨found, hfound, havailable⟩ := available_pos (hsome.trans_le hcapacity)
      obtain rfl := Option.some.inj (hbefore.symm.trans hfound)
      rw [havailable] at hcapacity
      show max 0 (before.reserved - heldBy input.lines previous key) +
        heldBy input.lines planning.allocations key ≤ before.quantityOnHand
      linarith

end Plan

/-! ## Whole quantities and tenths -/

/-- Three and four units of one product, of which two warehouses have five; one of the first is asked from the
warehouse that has less. -/
def shortInput : PlanInput where
  uuid := id
  localeCompare _ _ := 0
  quoteId := 3
  lines :=
    [{ id := 1, quoteId := 3, productId := 7, quantity := 3, listPrice := 10, discountPercent := 0, unitCost := 4 },
     { id := 2, quoteId := 3, productId := 7, quantity := 4, listPrice := 10, discountPercent := 0, unitCost := 4 }]
  warehouses :=
    [{ id := 21, name := "East", fulfillmentCostPerUnit := 1 },
      { id := 22, name := "West", fulfillmentCostPerUnit := 2 }]
  stock :=
    [{ warehouseId := 21, productId := 7, quantityOnHand := 4, reserved := 1 },
     { warehouseId := 22, productId := 7, quantityOnHand := 2, reserved := 0 }]
  overrides := [{ quoteLineId := 1, warehouseId := 22, quantity := 1 }]

def shortPlan : FulfillmentPlan where
  allocations :=
    [{ id := 0, quoteId := 3, quoteLineId := 1, warehouseId := 22, quantity := 1, unitFulfillmentCost := 2
       isBackorder := false, isManualOverride := true },
     { id := 1, quoteId := 3, quoteLineId := 1, warehouseId := 21, quantity := 2, unitFulfillmentCost := 1
       isBackorder := false, isManualOverride := false },
     { id := 2, quoteId := 3, quoteLineId := 2, warehouseId := 21, quantity := 1, unitFulfillmentCost := 1
       isBackorder := false, isManualOverride := false },
     { id := 3, quoteId := 3, quoteLineId := 2, warehouseId := 22, quantity := 1, unitFulfillmentCost := 2
       isBackorder := false, isManualOverride := false }]
  backorders := [{ id := 4, quoteId := 3, productId := 7, quantity := 2 }]
  shipmentCount := 2
  fulfillmentCost := 7
  backorderQuantity := 2

/-- A warehouse, and a line for a product that is in stock there. -/
def oneWarehouse (lines : List QuoteLine) (stock : List StockLevel) : PlanInput where
  uuid := id
  localeCompare _ _ := 0
  quoteId := 3
  lines
  warehouses := [{ id := 21, name := "East", fulfillmentCostPerUnit := 1 }]
  stock

def lineOf (id productId : Id) (quantity : Num) : QuoteLine where
  id
  quoteId := 3
  productId
  quantity
  listPrice := 10
  discountPercent := 0
  unitCost := 4

/-- Two lines of one product, of which there is one row. -/
def onTwoLines (onHand first second : Num) : PlanInput :=
  oneWarehouse [lineOf 1 7 (double first), lineOf 2 7 (double second)]
    [{ warehouseId := 21, productId := 7, quantityOnHand := double onHand, reserved := 0 }]

def splitOfOne (quantity : Num) : FulfillmentSplit where
  id := 0
  quoteId := 3
  quoteLineId := 1
  warehouseId := 21
  quantity
  unitFulfillmentCost := 1
  isBackorder := false
  isManualOverride := false

/-- Ten units on hand, five of them reserved. -/
def partlyReserved : List StockLevel :=
  [{ warehouseId := 21, productId := 7, quantityOnHand := 10, reserved := 5 }]

/-- One unit of a product, none of another. -/
def oneAndNone : List StockLevel :=
  [{ warehouseId := 21, productId := 7, quantityOnHand := 1, reserved := 0 },
   { warehouseId := 21, productId := 8, quantityOnHand := 0, reserved := 0 }]

end DealFlow360
