import DealFlow360.Fulfillment
import DealFlow360.Lib.Ledger
import DealFlow360.Lib.Program

/-!
# What a plan reserves

A plan is drawn against the availability of the stock it is given, so no row of
that stock is promised beyond what is on hand. Moving the reservations over to
it then moves every row by what the plan holds there less what the plan before
held.

What holds however the planner rounds comes first: which splits a plan has, and
of which rows. Then the exact facts:

- `Planned.allocate`: taking no more than is available keeps the books of a
  plan;
- `planFulfillment_eq_ok`: a plan against stock that fits, fits on top of what
  is reserved;
- `reserveStock_rows` and `reserveStock_moved`: what moving the reservations
  makes of every row, in general and where no reservation falls below zero.

Postings to rows are those of `Lib.Ledger`, with the stock row as the account
and the split as the entry.
-/

namespace DealFlow360

open Ledger Program

/-- Stock rows as accounts of reserved goods. -/
def stockAccounts : Accounts StockLevel StockKey Num where
  key := StockLevel.key
  credit c row := { row with reserved := row.reserved + c }
  credit_zero row := by rw [add_zero]
  credit_credit c d row := by rw [add_assoc]
  key_credit _ _ := rfl

/-- The row a split holds goods on: none for a backorder, nor for a line that is not there. -/
def splitAccount (productOf : Id → Option Id) (split : FulfillmentSplit) : Option StockKey :=
  if split.isBackorder then none
  else (productOf split.quoteLineId).map fun productId => (split.warehouseId, productId)

/-- What the splits of some lines hold on a row. -/
abbrev heldBy (lines : List QuoteLine) : List FulfillmentSplit → StockKey → Num :=
  sumAt (splitAccount (productByLineId lines)) (·.quantity)

/-- No row is reserved beyond what is on hand. -/
def Fits (stock : List StockLevel) : Prop :=
  ∀ key row, findRow stock key = some row → row.reserved ≤ row.quantityOnHand

theorem productByLineId_of_mem {lines : List QuoteLine} (hdistinct : (lines.map (·.id)).Nodup)
    {line : QuoteLine} (hline : line ∈ lines) : productByLineId lines line.id = some line.productId := by
  have hreverse : Table.Distinct QuoteLine.id lines.reverse := by
    unfold Table.Distinct
    rw [List.map_reverse, List.nodup_reverse]
    exact hdistinct
  have hlookup := Table.lookup_of_mem hreverse (List.mem_reverse.mpr hline)
  unfold productByLineId
  rw [show lines.reverse.find? (fun other => decide (other.id = line.id)) = some line from hlookup]
  rfl

/-- Which product a line id stands for depends on the ids and products of the lines alone. -/
theorem productByLineId_congr {lines lines' : List QuoteLine}
    (h : lines'.map (fun line => (line.id, line.productId))
      = lines.map fun line => (line.id, line.productId)) :
    productByLineId lines' = productByLineId lines := by
  have hview (lines : List QuoteLine) (lineId : Id) : productByLineId lines lineId
      = (((lines.map fun line => (line.id, line.productId)).reverse.find?
          fun pair => decide (pair.1 = lineId)).map (·.2)) := by
    unfold productByLineId
    rw [← List.map_reverse, List.find?_map, Option.map_map]
    rfl
  funext lineId
  rw [hview, hview, h]

/-- Lines of one id stand for one product. -/
def OneProduct (lines : List QuoteLine) : Prop :=
  ∀ line ∈ lines, productByLineId lines line.id = some line.productId

theorem oneProduct_of_distinct {lines : List QuoteLine} (h : (lines.map (·.id)).Nodup) : OneProduct lines :=
  fun _ hline => productByLineId_of_mem h hline

/-! ## Planning -/

theorem available_nonneg (fl : Rounding) (row : Option StockLevel) : 0 ≤ available fl row := by
  cases row with
  | none => exact le_rfl
  | some row => exact le_max_left _ _

theorem available_pos {row : Option StockLevel} (h : 0 < available id row) :
    ∃ found, row = some found ∧ available id row = found.quantityOnHand - found.reserved := by
  cases row with
  | none => exact absurd h (lt_irrefl 0)
  | some found =>
      refine ⟨found, rfl, ?_⟩
      simp only [available, id_eq] at h ⊢
      exact max_eq_right (le_of_lt ((lt_max_iff.mp h).resolve_left (lt_irrefl 0)))

/-- A split of the input's lines over the input's warehouses. -/
structure SplitOf (input : PlanInput) (split : FulfillmentSplit) : Prop where
  positive : 0 < split.quantity
  shipped : split.isBackorder = false
  line : ∃ line ∈ input.lines, line.id = split.quoteLineId
  warehouse : ∃ warehouse ∈ input.warehouses, warehouse.id = split.warehouseId

/-- What an override that goes through does. -/
theorem applyOverride_eq_ok {fl : Rounding} {input : PlanInput} {planning next : Planning}
    {override : FulfillmentOverride} (h : planning.applyOverride fl input override = .ok next) :
    ∃ line ∈ input.lines, ∃ warehouse ∈ input.warehouses,
      line.id = override.quoteLineId ∧ warehouse.id = override.warehouseId ∧ 0 < override.quantity ∧
        override.quantity ≤ planning.remainingOf line ∧
          override.quantity ≤ available fl (findRow planning.stockLeft (warehouse.id, line.productId)) ∧
            next = (planning.allocate fl input line warehouse override.quantity true).setRemaining line
              (fl (planning.remainingOf line - override.quantity)) := by
  unfold Planning.applyOverride at h
  split at h
  · cases h
  · rename_i line hline
    split at h
    · cases h
    · rename_i hpositive
      split at h
      · cases h
      · rename_i warehouse hwarehouse
        dsimp only at h
        split at h
        · cases h
        · rename_i hremaining
          split at h
          · cases h
          · rename_i hspare
            rw [not_or, not_lt] at hspare
            have hlineId : line.id = override.quoteLineId := by simpa using List.find?_some hline
            have hwarehouseId : warehouse.id = override.warehouseId := by simpa using List.find?_some hwarehouse
            exact ⟨line, List.mem_of_find?_eq_some hline, warehouse, List.mem_of_find?_eq_some hwarehouse, hlineId,
              hwarehouseId, not_le.mp hpositive, not_lt.mp hremaining, hspare.2, (Except.ok.inj h).symm⟩

theorem mem_byAvailability {fl : Rounding} {planning : Planning} {ranked : List Warehouse} {line : QuoteLine}
    {warehouse : Warehouse} : warehouse ∈ planning.byAvailability fl ranked line ↔ warehouse ∈ ranked :=
  mem_sortBy

/-- The warehouses in the order of the plan. -/
def PlanInput.ranked (input : PlanInput) : List Warehouse :=
  sortBy (compareWarehouses input.localeCompare) input.warehouses

theorem mem_ranked {input : PlanInput} {warehouse : Warehouse} :
    warehouse ∈ input.ranked ↔ warehouse ∈ input.warehouses :=
  mem_sortBy

/-- A plan is what the overrides and then the lines make of the stock. -/
theorem planFulfillment_runs {fl : Rounding} {input : PlanInput} {plan : FulfillmentPlan}
    (h : planFulfillment fl input = .ok plan) :
    ∃ overridden, input.overrides.foldlM (Planning.applyOverride fl input) { stockLeft := input.stock } =
        .ok overridden ∧
      plan = (input.lines.foldl (Planning.fillLine fl input input.ranked) overridden).finish fl input := by
  unfold planFulfillment at h
  obtain ⟨overridden, hoverrides, h⟩ := except_bind_eq_ok.mp h
  exact ⟨overridden, hoverrides, (Except.ok.inj h).symm⟩

/-! ## However it rounds -/

section Splits

variable {fl : Rounding} {input : PlanInput} {planning : Planning} {line : QuoteLine}

/-- Every split so far is of something that was asked and listed. -/
def SplitsOf (input : PlanInput) (planning : Planning) : Prop :=
  ∀ split ∈ planning.allocations, SplitOf input split

theorem SplitsOf.allocate (fl : Rounding) (h : SplitsOf input planning) (hline : line ∈ input.lines)
    {warehouse : Warehouse}
    (hwarehouse : warehouse ∈ input.warehouses) {quantity : Num} (hpositive : 0 < quantity)
    (isManualOverride : Bool) :
    SplitsOf input (planning.allocate fl input line warehouse quantity isManualOverride) := by
  intro split hsplit
  rcases List.mem_append.mp hsplit with hsplit | hsplit
  · exact h split hsplit
  · obtain rfl := List.mem_singleton.mp hsplit
    exact ⟨hpositive, rfl, ⟨line, hline, rfl⟩, ⟨warehouse, hwarehouse, rfl⟩⟩

theorem SplitsOf.applyOverride {override : FulfillmentOverride} {next : Planning} (h : SplitsOf input planning)
    (hstep : planning.applyOverride fl input override = .ok next) : SplitsOf input next := by
  obtain ⟨line, hline, warehouse, hwarehouse, -, -, hpositive, -, -, rfl⟩ := applyOverride_eq_ok hstep
  exact h.allocate fl hline hwarehouse hpositive true

theorem SplitsOf.takeFrom {loop : Planning × Num} (h : SplitsOf input loop.1) (hline : line ∈ input.lines)
    {warehouse : Warehouse} (hwarehouse : warehouse ∈ input.warehouses) :
    SplitsOf input (Planning.takeFrom fl input line loop warehouse).1 := by
  unfold Planning.takeFrom
  dsimp only
  split
  · exact h
  · split
    · exact h
    · rename_i htake
      exact h.allocate fl hline hwarehouse (not_le.mp htake) false

theorem SplitsOf.fillLine (h : SplitsOf input planning) (hline : line ∈ input.lines) :
    SplitsOf input (planning.fillLine fl input input.ranked line) :=
  List.foldlRecOn (motive := fun (loop : Planning × Num) => SplitsOf input loop.1) _ _ h
    fun _ hloop _ hwarehouse => hloop.takeFrom hline (mem_ranked.mp (mem_byAvailability.mp hwarehouse))

/-- Whatever the sums are rounded to, a plan holds something of what was asked from a listed warehouse. -/
theorem splits_of_plan {plan : FulfillmentPlan} (h : planFulfillment fl input = .ok plan) :
    ∀ split ∈ plan.allocations, SplitOf input split := by
  obtain ⟨overridden, hoverrides, rfl⟩ := planFulfillment_runs h
  have hstart : SplitsOf input overridden := except_foldlM_invariant (SplitsOf input) input.overrides
    (fun override _ planning next hsplits hstep => hsplits.applyOverride hstep) _ _
    (fun _ hsplit => absurd hsplit List.not_mem_nil) hoverrides
  exact List.foldlRecOn (motive := SplitsOf input) input.lines (Planning.fillLine fl input input.ranked) hstart
    fun planning hsplits line hline => hsplits.fillLine hline

end Splits

/-! ## Exactly -/

/-- What the planner has done so far: the stock it looks at is the stock it was given with every split
made so far reserved, and no more is promised of a row than was available there. -/
structure Planned (input : PlanInput) (planning : Planning) : Prop where
  moved : stockAccounts.Moved (heldBy input.lines planning.allocations) input.stock planning.stockLeft
  capacity : ∀ key, heldBy input.lines planning.allocations key ≤ available id (findRow input.stock key)
  splits : SplitsOf input planning

section Planning

variable {input : PlanInput} {planning : Planning} {line : QuoteLine}

theorem Planned.start : Planned input { stockLeft := input.stock } where
  moved := .congr (.refl _) fun _ => rfl
  capacity _ := available_nonneg _ _
  splits := fun _ hsplit => absurd hsplit List.not_mem_nil

theorem Planned.setRemaining (h : Planned input planning) (remaining : Num) :
    Planned input (planning.setRemaining line remaining) :=
  ⟨h.moved, h.capacity, h.splits⟩

theorem Planned.addBackorder (h : Planned input planning) (remaining : Num) :
    Planned input (planning.addBackorder id line remaining) :=
  ⟨h.moved, h.capacity, h.splits⟩

theorem Planned.held_nonneg (h : Planned input planning) (key : StockKey) :
    0 ≤ heldBy input.lines planning.allocations key :=
  sumAt_nonneg (fun split hsplit => le_of_lt (h.splits split hsplit).positive) key

/-- What is left is what was available less what the plan holds. -/
theorem Planned.available_eq (h : Planned input planning) (key : StockKey) :
    available id (findRow planning.stockLeft key) =
      available id (findRow input.stock key) - heldBy input.lines planning.allocations key := by
  have hnonneg := h.held_nonneg key
  have hcapacity := h.capacity key
  have hlookup : findRow planning.stockLeft key =
      (findRow input.stock key).map (stockAccounts.credit (heldBy input.lines planning.allocations key)) :=
    h.moved.rows key
  rw [hlookup]
  cases hrow : findRow input.stock key with
  | none =>
      rw [hrow] at hcapacity
      have hnothing : heldBy input.lines planning.allocations key = 0 := le_antisymm hcapacity hnonneg
      rw [hnothing, sub_zero]
      rfl
  | some row =>
      rw [hrow] at hcapacity
      show max 0 (row.quantityOnHand - (row.reserved + heldBy input.lines planning.allocations key)) =
        max 0 (row.quantityOnHand - row.reserved) - heldBy input.lines planning.allocations key
      replace hcapacity : heldBy input.lines planning.allocations key ≤ max 0 (row.quantityOnHand - row.reserved) :=
        hcapacity
      rcases le_total (row.quantityOnHand - row.reserved) 0 with hfull | hroom
      · rw [max_eq_left hfull] at hcapacity ⊢
        rw [max_eq_left (by linarith)]
        linarith
      · rw [max_eq_right hroom] at hcapacity ⊢
        rw [max_eq_right (by linarith)]
        ring

/-- What a recorded split adds to a row. -/
theorem heldBy_allocate (hlines : OneProduct input.lines) (hline : line ∈ input.lines) (warehouse : Warehouse)
    (quantity : Num) (isManualOverride : Bool) (key : StockKey) :
    heldBy input.lines (planning.allocate id input line warehouse quantity isManualOverride).allocations key =
      heldBy input.lines planning.allocations key +
        if (warehouse.id, line.productId) = key then quantity else 0 := by
  have haccount : splitAccount (productByLineId input.lines)
      { id := input.uuid planning.allocations.length
        quoteId := input.quoteId
        quoteLineId := line.id
        warehouseId := warehouse.id
        quantity
        unitFulfillmentCost := warehouse.fulfillmentCostPerUnit
        isBackorder := false
        isManualOverride } = some (warehouse.id, line.productId) := by
    simp [splitAccount, hlines line hline]
  rw [Planning.allocate, heldBy, sumAt_append, sumAt_cons, haccount, sumAt_nil, add_zero]
  simp only [Option.some.injEq]

/-- Taking no more than is available keeps the books. -/
theorem Planned.allocate (h : Planned input planning) (hlines : OneProduct input.lines)
    (hline : line ∈ input.lines) {warehouse : Warehouse} (hwarehouse : warehouse ∈ input.warehouses)
    {quantity : Num} {isManualOverride : Bool} (hpositive : 0 < quantity)
    (havailable : quantity ≤ available id (findRow planning.stockLeft (warehouse.id, line.productId))) :
    Planned input (planning.allocate id input line warehouse quantity isManualOverride) where
  moved := by
    refine .congr (h.moved.trans (.post (warehouse.id, line.productId) quantity _)) fun key => ?_
    rw [heldBy_allocate hlines hline]
    rfl
  capacity := by
    intro key
    rw [heldBy_allocate hlines hline]
    split
    · rename_i hkey
      rw [h.available_eq, hkey] at havailable
      linarith
    · rw [add_zero]
      exact h.capacity key
  splits := h.splits.allocate id hline hwarehouse hpositive isManualOverride

theorem Planned.applyOverride {override : FulfillmentOverride} {next : Planning}
    (h : Planned input planning) (hlines : OneProduct input.lines)
    (hstep : planning.applyOverride id input override = .ok next) : Planned input next := by
  obtain ⟨line, hline, warehouse, hwarehouse, -, -, hpositive, -, havailable, rfl⟩ := applyOverride_eq_ok hstep
  exact (h.allocate hlines hline hwarehouse hpositive havailable).setRemaining _

theorem Planned.takeFrom {loop : Planning × Num} (h : Planned input loop.1) (hlines : OneProduct input.lines)
    (hline : line ∈ input.lines) {warehouse : Warehouse} (hwarehouse : warehouse ∈ input.warehouses) :
    Planned input (Planning.takeFrom id input line loop warehouse).1 := by
  unfold Planning.takeFrom
  dsimp only
  split
  · exact h
  · split
    · exact h
    · rename_i htake
      exact h.allocate hlines hline hwarehouse (not_le.mp htake) (min_le_right _ _)

theorem Planned.fillLine (h : Planned input planning) (hlines : OneProduct input.lines)
    (hline : line ∈ input.lines) {ranked : List Warehouse}
    (hranked : ∀ warehouse ∈ ranked, warehouse ∈ input.warehouses) :
    Planned input (planning.fillLine id input ranked line) := by
  have hloop : Planned input ((planning.byAvailability id ranked line).foldl
      (Planning.takeFrom id input line) (planning, planning.remainingOf line)).1 :=
    List.foldlRecOn (motive := fun (loop : Planning × Num) => Planned input loop.1) _ _ h
      fun loop hloop warehouse hwarehouse =>
        hloop.takeFrom hlines hline (hranked warehouse (mem_byAvailability.mp hwarehouse))
  exact (hloop.setRemaining _).addBackorder _

end Planning

theorem planned_of_plan {input : PlanInput} {plan : FulfillmentPlan} (hlines : OneProduct input.lines)
    (h : planFulfillment id input = .ok plan) :
    ∃ planning, Planned input planning ∧ planning.allocations = plan.allocations := by
  obtain ⟨overridden, hoverrides, rfl⟩ := planFulfillment_runs h
  have hstart : Planned input overridden := except_foldlM_invariant (Planned input) input.overrides
    (fun override _ planning next hplanned hstep => hplanned.applyOverride hlines hstep) _ _ .start hoverrides
  exact ⟨_, List.foldlRecOn (motive := Planned input) input.lines (Planning.fillLine id input input.ranked) hstart
    fun planning hplanned line hline => hplanned.fillLine hlines hline fun _ => mem_ranked.mp, rfl⟩

/-- What a plan against stock that fits holds: it fits on top of what is reserved already. -/
theorem planFulfillment_eq_ok {input : PlanInput} {plan : FulfillmentPlan} (hfits : Fits input.stock)
    (hlines : OneProduct input.lines) (h : planFulfillment id input = .ok plan) :
    (∀ split ∈ plan.allocations, 0 < split.quantity) ∧
      ∀ key row, findRow input.stock key = some row →
        row.reserved + heldBy input.lines plan.allocations key ≤ row.quantityOnHand := by
  obtain ⟨planning, hplanned, hallocations⟩ := planned_of_plan hlines h
  rw [← hallocations]
  refine ⟨fun split hsplit => (hplanned.splits split hsplit).positive, fun key row hrow => ?_⟩
  have hcapacity := hplanned.capacity key
  have hroom : 0 ≤ row.quantityOnHand - row.reserved := sub_nonneg.mpr (hfits key row hrow)
  rw [hrow, available, id_eq, max_eq_right hroom] at hcapacity
  linarith

/-! ## Moving the reservations -/

section Reserving

variable {productOf : Id → Option Id} {stock stock' : List StockLevel} {split : FulfillmentSplit}
  {delta : Num}

/-- A reservation that stays above zero is moved as asked; a backorder moves nothing. -/
theorem mutateReserved_moved (h : mutateReserved id productOf stock split delta = .ok stock')
    (hroom : ∀ key row, splitAccount productOf split = some key → findRow stock key = some row →
      0 ≤ row.reserved + delta) :
    stockAccounts.Moved (fun key => if splitAccount productOf split = some key then delta else 0)
      stock stock' := by
  simp only [mutateReserved, id_eq] at h
  split at h
  · rename_i hbackorder
    obtain rfl := Except.ok.inj h
    refine .congr (.refl _) fun key => ?_
    rw [splitAccount, if_pos hbackorder, if_neg (by simp)]
    rfl
  · rename_i hbackorder
    split at h
    · cases h
    · rename_i row hrow
      obtain rfl := Except.ok.inj h
      obtain ⟨productId, hproduct, hfound⟩ := Option.bind_eq_some_iff.mp hrow
      have hkey : row.key = (split.warehouseId, productId) := Table.key_of_lookup hfound
      have haccount : splitAccount productOf split = some row.key := by
        rw [splitAccount, if_neg hbackorder, hproduct, hkey]
        rfl
      have hpost : updateRow row.key
          (fun row => { row with reserved := max 0 (row.reserved + delta) }) stock
            = stockAccounts.post row.key delta stock := by
        refine Table.modifyFirst_congr fun found hlookup => ?_
        rw [max_eq_right (hroom row.key found haccount hlookup)]
        rfl
      rw [hpost]
      refine .congr (.post row.key delta stock) fun key => ?_
      rw [haccount]
      simp only [Option.some.injEq]

/-- What a mutation does to the row it is about, and that it leaves the others alone. -/
theorem mutateReserved_rows (h : mutateReserved id productOf stock split delta = .ok stock') :
    stock'.map StockLevel.key = stock.map StockLevel.key ∧
      ∀ key, findRow stock' key = (findRow stock key).map fun row =>
        if splitAccount productOf split = some key then { row with reserved := max 0 (row.reserved + delta) }
        else row := by
  simp only [mutateReserved, id_eq] at h
  split at h
  · rename_i hbackorder
    obtain rfl := Except.ok.inj h
    refine ⟨rfl, fun key => ?_⟩
    rw [splitAccount, if_pos hbackorder]
    simp
  · rename_i hbackorder
    split at h
    · cases h
    · rename_i row hrow
      obtain rfl := Except.ok.inj h
      obtain ⟨productId, hproduct, hfound⟩ := Option.bind_eq_some_iff.mp hrow
      have hkey : row.key = (split.warehouseId, productId) := Table.key_of_lookup hfound
      have haccount : splitAccount productOf split = some row.key := by
        rw [splitAccount, if_neg hbackorder, hproduct, hkey]
        rfl
      have hkeys : ∀ row : StockLevel,
          StockLevel.key { row with reserved := max 0 (row.reserved + delta) } = row.key := fun _ => rfl
      refine ⟨Table.map_modifyFirst hkeys stock, fun key => ?_⟩
      have hlookup := Table.lookup_modifyFirst hkeys row.key key stock
      refine hlookup.trans ?_
      simp only [haccount, Option.some.injEq]
      by_cases hsame : row.key = key
      · simp only [hsame, if_true]
      · simp only [if_neg hsame, Option.map_id_fun', id]

/-- A row that is released of a quantity, of no more than is reserved. -/
def released (quantity : Num) (row : StockLevel) : StockLevel :=
  { row with reserved := max 0 (row.reserved - quantity) }

theorem released_released {first last : Num} (h : 0 ≤ last) (row : StockLevel) :
    released last (released first row) = released (first + last) row := by
  unfold released
  congr 1
  rcases le_total (row.reserved - first) 0 with hle | hle
  · rw [max_eq_left hle, max_eq_left (by linarith), max_eq_left (by linarith)]
  · rw [max_eq_right hle]
    congr 1
    ring

theorem released_zero {row : StockLevel} (h : 0 ≤ row.reserved) : released 0 row = row := by
  unfold released
  rw [sub_zero, max_eq_right h]

/-- Releasing splits takes each off its row. -/
theorem release_rows : ∀ {previous : List FulfillmentSplit} {stock stock' : List StockLevel},
    (∀ split ∈ previous, 0 ≤ split.quantity) →
      (∀ key row, findRow stock key = some row → 0 ≤ row.reserved) →
        previous.foldlM (fun stock split => mutateReserved id productOf stock split (-split.quantity))
            stock = .ok stock' →
          stock'.map StockLevel.key = stock.map StockLevel.key ∧ ∀ key, findRow stock' key =
            (findRow stock key).map (released (sumAt (splitAccount productOf) (·.quantity) previous key))
  | [], stock, stock', _, hreserved, h => by
      obtain rfl := Except.ok.inj h
      refine ⟨rfl, fun key => ?_⟩
      rw [sumAt_nil]
      cases hrow : findRow stock key with
      | none => rfl
      | some row => exact congrArg some (released_zero (hreserved key row hrow)).symm
  | split :: previous, stock, stock', hnonneg, hreserved, h => by
      rw [List.foldlM_cons, except_bind_eq_ok] at h
      obtain ⟨next, hstep, hrest⟩ := h
      have hnonneg' : ∀ split ∈ previous, 0 ≤ split.quantity :=
        fun split hsplit => hnonneg split (List.mem_cons_of_mem _ hsplit)
      obtain ⟨hkeys, hrows⟩ := mutateReserved_rows hstep
      have hreserved' : ∀ key row, findRow next key = some row → 0 ≤ row.reserved := by
        intro key row hrow
        rw [hrows key] at hrow
        obtain ⟨before, hbefore, rfl⟩ := Option.map_eq_some_iff.mp hrow
        split
        · exact le_max_left _ _
        · exact hreserved key before hbefore
      obtain ⟨hkeys', hrows'⟩ := release_rows hnonneg' hreserved' hrest
      refine ⟨hkeys'.trans hkeys, fun key => ?_⟩
      rw [hrows', hrows, sumAt_cons]
      cases hrow : findRow stock key with
      | none => rfl
      | some row =>
          have hsum : 0 ≤ sumAt (splitAccount productOf) (·.quantity) previous key := sumAt_nonneg hnonneg' key
          refine congrArg some ?_
          dsimp only
          by_cases haccount : splitAccount productOf split = some key
          · rw [if_pos haccount, if_pos haccount, ← sub_eq_add_neg]
            exact released_released hsum row
          · rw [if_neg haccount, if_neg haccount, zero_add]

/-- Reserving splits puts each onto its row. -/
theorem reserve_moved : ∀ {next : List FulfillmentSplit} {stock stock' : List StockLevel},
    (∀ split ∈ next, 0 ≤ split.quantity) →
      (∀ key row, findRow stock key = some row → 0 ≤ row.reserved) →
      next.foldlM (reserveNext id productOf) stock = .ok stock' →
        stockAccounts.Moved (sumAt (splitAccount productOf) (·.quantity) next) stock stock'
  | [], stock, stock', _, _, h => by
      obtain rfl := Except.ok.inj h
      exact .congr (.refl _) fun key => rfl
  | split :: next, stock, stock', hnonneg, hreserved, h => by
      rw [List.foldlM_cons, except_bind_eq_ok] at h
      obtain ⟨middle, hstep, hrest⟩ := h
      have hquantity := hnonneg split List.mem_cons_self
      have hmutated : mutateReserved id productOf stock split split.quantity = .ok middle := by
        unfold reserveNext at hstep
        obtain ⟨mutated, hmutated, hcheck⟩ := except_bind_eq_ok.mp hstep
        split at hcheck
        · split at hcheck
          · cases hcheck
          · obtain rfl := Except.ok.inj hcheck
            exact hmutated
        · obtain rfl := Except.ok.inj hcheck
          exact hmutated
      have hmoved := mutateReserved_moved hmutated fun key row _ hrow =>
        add_nonneg (hreserved key row hrow) hquantity
      refine .congr (hmoved.trans (reserve_moved
        (fun split hsplit => hnonneg split (List.mem_cons_of_mem _ hsplit)) ?_ hrest)) fun key => ?_
      · intro key row hrow
        have hlookup := hmoved.rows key
        rw [show Table.lookup stockAccounts.key key middle = some row from hrow] at hlookup
        obtain ⟨before, hbefore, rfl⟩ := Option.map_eq_some_iff.mp hlookup.symm
        show 0 ≤ before.reserved + (if _ then split.quantity else 0)
        have hbound := hreserved key before hbefore
        split
        · exact add_nonneg hbound hquantity
        · rwa [add_zero]
      · rw [Pi.add_apply, sumAt_cons]

/-- Moving the reservations from one plan to the next releases every row of what the plan before holds there, as far
as it is reserved, and reserves what the next one holds. -/
theorem reserveStock_rows {previous next : List FulfillmentSplit}
    (hprevious : ∀ split ∈ previous, 0 ≤ split.quantity) (hnext : ∀ split ∈ next, 0 ≤ split.quantity)
    (hreserved : ∀ key row, findRow stock key = some row → 0 ≤ row.reserved)
    (h : reserveStock id productOf stock previous next = .ok stock') :
    stock'.map StockLevel.key = stock.map StockLevel.key ∧ ∀ key, findRow stock' key =
      (findRow stock key).map fun row =>
        stockAccounts.credit (sumAt (splitAccount productOf) (·.quantity) next key)
          (released (sumAt (splitAccount productOf) (·.quantity) previous key) row) := by
  unfold reserveStock at h
  obtain ⟨middle, hrelease, hreserve⟩ := except_bind_eq_ok.mp h
  obtain ⟨hkeys, hrows⟩ := release_rows hprevious hreserved hrelease
  have hmoved := reserve_moved hnext (fun key row hrow => by
    rw [hrows key] at hrow
    obtain ⟨before, -, rfl⟩ := Option.map_eq_some_iff.mp hrow
    exact le_max_left _ _) hreserve
  refine ⟨hmoved.keys.trans hkeys, fun key => ?_⟩
  have hlookup : findRow stock' key = (findRow middle key).map (stockAccounts.credit _) := hmoved.rows key
  rw [hlookup, hrows, Option.map_map]
  rfl

/-- Moving the reservations from one plan to the next moves every row by the difference of what they
hold there, provided what the plan before holds is reserved. -/
theorem reserveStock_moved {previous next : List FulfillmentSplit}
    (hprevious : ∀ split ∈ previous, 0 ≤ split.quantity) (hnext : ∀ split ∈ next, 0 ≤ split.quantity)
    (hreserved : ∀ key row, findRow stock key = some row →
      sumAt (splitAccount productOf) (·.quantity) previous key ≤ row.reserved)
    (h : reserveStock id productOf stock previous next = .ok stock') :
    stockAccounts.Moved
      (fun key => sumAt (splitAccount productOf) (·.quantity) next key
        - sumAt (splitAccount productOf) (·.quantity) previous key) stock stock' := by
  obtain ⟨hkeys, hrows⟩ := reserveStock_rows hprevious hnext
    (fun key row hrow => (sumAt_nonneg hprevious key).trans (hreserved key row hrow)) h
  refine ⟨hkeys, fun key => (hrows key).trans ?_⟩
  cases hrow : findRow stock key with
  | none =>
      rw [show Table.lookup stockAccounts.key key stock = none from hrow]
      rfl
  | some row =>
      have hheld := hreserved key row hrow
      rw [show Table.lookup stockAccounts.key key stock = some row from hrow]
      refine congrArg some ?_
      show { row with reserved := max 0 (row.reserved - _) + _ } = { row with reserved := row.reserved + (_ - _) }
      rw [max_eq_right (sub_nonneg.mpr hheld)]
      congr 1
      ring

end Reserving

end DealFlow360
