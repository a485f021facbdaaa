import DealFlow360.Reservation

/-!
# What a plan comes to

The planner fills the overrides first and then every line from the warehouses
with most of its product. What a line gets and what remains of it make up its
quantity at every step, a row gives no more than was available, and a line of
which something remains has exhausted every warehouse.

The planner's loops are followed with one invariant for the accounts of the
lines: for each line, what it got and what remains make up what it asked
(`Shared`), and no row has given more than was available (`Took`).

- `took_fillLine`: what filling a line can do;
- `filled_of_overrides`: what the overrides leave to begin with;
- `backorderFor_finish`: the backorder of a product is what its lines leave
  open;
- `exact_plan_conservative`: allocated and backordered quantities make up the
  demand, capacity is kept, and a backorder means that nothing was left.
-/

namespace DealFlow360

open Ledger Program

/-! ## Totals -/

/-- What the splits give a line. -/
def allocatedTo (allocations : List FulfillmentSplit) (lineId : Id) : Num :=
  sumAt (fun split => some split.quoteLineId) (·.quantity) allocations lineId

/-- The lines of a product. -/
def linesOf (lines : List QuoteLine) (productId : Id) : List QuoteLine :=
  lines.filter fun line => line.productId = productId

/-- What the splits give the lines of a product. -/
def allocatedFor (lines : List QuoteLine) (allocations : List FulfillmentSplit) (productId : Id) : Num :=
  ((linesOf lines productId).map fun line => allocatedTo allocations line.id).sum

def backorderFor (backorders : List Backorder) (productId : Id) : Num :=
  ((backorders.filter fun item => item.productId = productId).map (·.quantity)).sum

/-- A manual split as the override that asked for it. -/
def FulfillmentSplit.override (split : FulfillmentSplit) : FulfillmentOverride where
  quoteLineId := split.quoteLineId
  warehouseId := split.warehouseId
  quantity := split.quantity

/-- The overrides that were carried out. -/
def overridesIn (allocations : List FulfillmentSplit) : List FulfillmentOverride :=
  (allocations.filter (·.isManualOverride)).map (·.override)

theorem allocatedTo_nonneg {allocations : List FulfillmentSplit} (h : ∀ split ∈ allocations, 0 < split.quantity)
    (lineId : Id) : 0 ≤ allocatedTo allocations lineId :=
  sumAt_nonneg (fun split hsplit => le_of_lt (h split hsplit)) lineId

section Steps

variable {input : PlanInput} {planning : Planning} {line : QuoteLine}

theorem allocatedTo_allocate (warehouse : Warehouse) (quantity : Num) (isManualOverride : Bool) (lineId : Id) :
    allocatedTo (planning.allocate id input line warehouse quantity isManualOverride).allocations lineId =
      allocatedTo planning.allocations lineId + if line.id = lineId then quantity else 0 := by
  rw [Planning.allocate, allocatedTo, sumAt_append, sumAt_cons, sumAt_nil, add_zero]
  simp only [Option.some.injEq]
  rfl

theorem overridesIn_allocate (warehouse : Warehouse) (quantity : Num) :
    overridesIn (planning.allocate id input line warehouse quantity true).allocations =
        overridesIn planning.allocations ++
          [{ quoteLineId := line.id, warehouseId := warehouse.id, quantity }] ∧
      overridesIn (planning.allocate id input line warehouse quantity false).allocations =
        overridesIn planning.allocations := by
  constructor
  · rw [Planning.allocate, overridesIn, List.filter_append, List.map_append]
    rfl
  · rw [Planning.allocate, overridesIn, List.filter_append, List.map_append]
    exact List.append_nil _

/-- A row that has given what was available there. -/
def Spent (input : PlanInput) (planning : Planning) (key : StockKey) : Prop :=
  heldBy input.lines planning.allocations key = available id (findRow input.stock key)

theorem Planned.spent_iff (h : Planned input planning) (key : StockKey) :
    Spent input planning key ↔ available id (findRow planning.stockLeft key) = 0 := by
  rw [h.available_eq, sub_eq_zero]
  exact eq_comm

/-! ## One line -/

/-- What offering warehouses to a line can do. -/
structure Took (input : PlanInput) (line : QuoteLine) (before after : Planning × Num) : Prop where
  planned : Planned input after.1
  byLine : after.1.remainingByLine = before.1.remainingByLine
  byProduct : after.1.remainingByProduct = before.1.remainingByProduct
  idle : before.2 ≤ 0 → after.2 = before.2
  nonneg : 0 ≤ before.2 → 0 ≤ after.2
  allocated : ∀ lineId, allocatedTo after.1.allocations lineId =
    allocatedTo before.1.allocations lineId + if line.id = lineId then before.2 - after.2 else 0
  overrides : overridesIn after.1.allocations = overridesIn before.1.allocations
  held : ∀ key, heldBy input.lines before.1.allocations key ≤ heldBy input.lines after.1.allocations key

theorem Took.refl {loop : Planning × Num} (h : Planned input loop.1) : Took input line loop loop where
  planned := h
  byLine := rfl
  byProduct := rfl
  idle _ := rfl
  nonneg hnonneg := hnonneg
  allocated lineId := by rw [sub_self, ite_self, add_zero]
  overrides := rfl
  held _ := le_rfl

theorem Took.trans {before middle after : Planning × Num} (h : Took input line before middle)
    (h' : Took input line middle after) : Took input line before after where
  planned := h'.planned
  byLine := h'.byLine.trans h.byLine
  byProduct := h'.byProduct.trans h.byProduct
  idle hidle := by
    have hmiddle := h.idle hidle
    rw [← hmiddle] at hidle ⊢
    exact h'.idle hidle
  nonneg hnonneg := h'.nonneg (h.nonneg hnonneg)
  allocated lineId := by
    rw [h'.allocated, h.allocated]
    split
    · ring
    · ring
  overrides := h'.overrides.trans h.overrides
  held key := (h.held key).trans (h'.held key)

/-- What is spent stays spent. -/
theorem Took.spent {before after : Planning × Num} (h : Took input line before after) {key : StockKey}
    (hspent : Spent input before.1 key) : Spent input after.1 key :=
  le_antisymm (h.planned.capacity key) (hspent.symm.le.trans (h.held key))

section Loop

variable {loop : Planning × Num}

theorem took_takeFrom (hlines : OneProduct input.lines) (hline : line ∈ input.lines) (h : Planned input loop.1)
    {warehouse : Warehouse} (hwarehouse : warehouse ∈ input.warehouses) :
    Took input line loop (Planning.takeFrom id input line loop warehouse) := by
  have hplanned := h.takeFrom hlines hline hwarehouse
  unfold Planning.takeFrom at hplanned ⊢
  dsimp only [id_eq] at hplanned ⊢
  by_cases hdone : loop.2 ≤ 0
  · rw [if_pos hdone]
    exact .refl h
  · rw [if_neg hdone] at hplanned ⊢
    by_cases hnothing : min loop.2 (available id (findRow loop.1.stockLeft (warehouse.id, line.productId))) ≤ 0
    · rw [if_pos hnothing]
      exact .refl h
    · rw [if_neg hnothing] at hplanned ⊢
      exact
        { planned := hplanned
          byLine := rfl
          byProduct := rfl
          idle := fun hidle => absurd hidle hdone
          nonneg := fun _ => sub_nonneg.mpr (min_le_left _ _)
          allocated := fun lineId => by
            dsimp only
            rw [allocatedTo_allocate, sub_sub_cancel]
          overrides := (overridesIn_allocate warehouse _).2
          held := fun key => by
            rw [heldBy_allocate hlines hline]
            refine le_add_of_nonneg_right ?_
            split
            · exact le_of_lt (not_le.mp hnothing)
            · exact le_rfl }

/-- A line that goes on wanting has left nothing in the warehouse. -/
theorem takeFrom_spent (hlines : OneProduct input.lines) (hline : line ∈ input.lines) (h : Planned input loop.1)
    {warehouse : Warehouse} (hwarehouse : warehouse ∈ input.warehouses)
    (hwants : 0 < (Planning.takeFrom id input line loop warehouse).2) :
    Spent input (Planning.takeFrom id input line loop warehouse).1 (warehouse.id, line.productId) := by
  have hplanned := h.takeFrom hlines hline hwarehouse
  rw [hplanned.spent_iff, hplanned.available_eq]
  have hbefore := h.available_eq (warehouse.id, line.productId)
  have hnonneg := available_nonneg id (findRow loop.1.stockLeft (warehouse.id, line.productId))
  unfold Planning.takeFrom at hwants ⊢
  dsimp only [id_eq] at hwants ⊢
  by_cases hdone : loop.2 ≤ 0
  · rw [if_pos hdone] at hwants
    exact absurd hwants (not_lt.mpr hdone)
  · rw [if_neg hdone] at hwants ⊢
    by_cases hnothing : min loop.2 (available id (findRow loop.1.stockLeft (warehouse.id, line.productId))) ≤ 0
    · rw [if_pos hnothing]
      rcases min_le_iff.mp hnothing with hle | hle
      · exact absurd hle hdone
      · linarith
    · rw [if_neg hnothing] at hwants ⊢
      have hall : min loop.2 (available id (findRow loop.1.stockLeft (warehouse.id, line.productId))) =
          available id (findRow loop.1.stockLeft (warehouse.id, line.productId)) := by
        refine min_eq_right (le_of_lt (lt_of_not_ge fun hle => ?_))
        rw [min_eq_left hle, sub_self] at hwants
        exact lt_irrefl 0 hwants
      rw [hall, heldBy_allocate hlines hline, if_pos rfl]
      linarith

theorem took_foldl (hlines : OneProduct input.lines) (hline : line ∈ input.lines) :
    ∀ {warehouses : List Warehouse} (loop : Planning × Num),
    (∀ warehouse ∈ warehouses, warehouse ∈ input.warehouses) → Planned input loop.1 →
      Took input line loop (warehouses.foldl (Planning.takeFrom id input line) loop) ∧
        (0 < (warehouses.foldl (Planning.takeFrom id input line) loop).2 → ∀ warehouse ∈ warehouses,
          Spent input (warehouses.foldl (Planning.takeFrom id input line) loop).1 (warehouse.id, line.productId))
  | [], loop, _, h => ⟨.refl h, fun _ _ hwarehouse => absurd hwarehouse List.not_mem_nil⟩
  | first :: rest, loop, hwarehouses, h => by
      have hfirst := hwarehouses first List.mem_cons_self
      have htook := took_takeFrom hlines hline h hfirst
      have hwarehouses' : ∀ warehouse ∈ rest, warehouse ∈ input.warehouses :=
        fun warehouse hwarehouse => hwarehouses warehouse (List.mem_cons_of_mem _ hwarehouse)
      obtain ⟨hrest, hspent⟩ := took_foldl hlines hline _ hwarehouses' htook.planned
      rw [List.foldl_cons]
      refine ⟨htook.trans hrest, fun hwants warehouse hwarehouse => ?_⟩
      rcases List.mem_cons.mp hwarehouse with rfl | hwarehouse
      · refine hrest.spent (takeFrom_spent hlines hline h hfirst ?_)
        by_contra hdone
        rw [hrest.idle (not_lt.mp hdone)] at hwants
        exact hdone hwants
      · exact hspent hwants warehouse hwarehouse

end Loop

/-! ## The accounts of the lines -/

/-- What a line has and what remains of it are its quantity. -/
structure Shared (input : PlanInput) (planning : Planning) : Prop where
  planned : Planned input planning
  split : ∀ line ∈ input.lines, allocatedTo planning.allocations line.id + planning.remainingOf line = line.quantity
  share : ∀ line ∈ input.lines, allocatedTo planning.allocations line.id ≤ max 0 line.quantity

theorem remainingOf_setRemaining (remaining : Num) (other : QuoteLine) :
    (planning.setRemaining line remaining).remainingOf other =
      if line.id = other.id then remaining else planning.remainingOf other := by
  unfold Planning.remainingOf Planning.setRemaining
  rw [Table.lookup_upsert]
  by_cases hid : line.id = other.id
  · rw [if_pos hid, if_pos hid]
    rfl
  · rw [if_neg hid, if_neg hid]

theorem Shared.start : Shared input { stockLeft := input.stock } where
  planned := .start
  split _ _ := zero_add _
  share _ _ := le_max_left _ _

/-- Lines of one id are one line. -/
theorem eq_of_line_id (hdistinct : (input.lines.map (·.id)).Nodup) {other : QuoteLine} (hline : line ∈ input.lines)
    (hother : other ∈ input.lines) (hid : line.id = other.id) : other = line :=
  (List.inj_on_of_nodup_map hdistinct hline hother hid).symm

/-- A line that gets some of what remains of it. -/
theorem Shared.give (hdistinct : (input.lines.map (·.id)).Nodup) (h : Shared input planning)
    (hline : line ∈ input.lines) {next : Planning} (taken : Num) (hplanned : Planned input next)
    (hallocated : ∀ lineId, allocatedTo next.allocations lineId =
      allocatedTo planning.allocations lineId + if line.id = lineId then taken else 0)
    (hremaining : ∀ other, next.remainingOf other =
      if line.id = other.id then planning.remainingOf line - taken else planning.remainingOf other)
    (hshare : taken = 0 ∨ taken ≤ planning.remainingOf line) : Shared input next where
  planned := hplanned
  split other hother := by
    rw [hallocated, hremaining]
    by_cases hid : line.id = other.id
    · obtain rfl := eq_of_line_id hdistinct hline hother hid
      rw [if_pos rfl, if_pos rfl, ← h.split other hother]
      ring
    · rw [if_neg hid, if_neg hid, add_zero]
      exact h.split other hother
  share other hother := by
    rw [hallocated]
    by_cases hid : line.id = other.id
    · obtain rfl := eq_of_line_id hdistinct hline hother hid
      have hsplit := h.split other hother
      rw [if_pos rfl]
      rcases hshare with hnothing | hle
      · rw [hnothing, add_zero]
        exact h.share other hother
      · refine le_max_of_le_right ?_
        linarith
    · rw [if_neg hid, add_zero]
      exact h.share other hother

theorem Shared.applyOverride (hdistinct : (input.lines.map (·.id)).Nodup) (h : Shared input planning)
    {override : FulfillmentOverride} {next : Planning} (hstep : planning.applyOverride id input override = .ok next) :
    Shared input next ∧ overridesIn next.allocations = overridesIn planning.allocations ++ [override] ∧
      next.remainingByProduct = planning.remainingByProduct := by
  have hplanned := h.planned.applyOverride (oneProduct_of_distinct hdistinct) hstep
  obtain ⟨line, hline, warehouse, -, hlineId, hwarehouseId, -, hremaining, -, rfl⟩ := applyOverride_eq_ok hstep
  refine ⟨h.give hdistinct hline override.quantity hplanned
    (allocatedTo_allocate warehouse override.quantity true) (fun other => ?_)
    (.inr hremaining), ?_, rfl⟩
  · rw [remainingOf_setRemaining]
    rfl
  · refine (overridesIn_allocate warehouse override.quantity).1.trans ?_
    rw [hlineId, hwarehouseId]

theorem Shared.applyOverrides (hdistinct : (input.lines.map (·.id)).Nodup) :
    ∀ {overrides : List FulfillmentOverride} {planning next : Planning}, Shared input planning →
      overrides.foldlM (Planning.applyOverride id input) planning = .ok next →
        Shared input next ∧ overridesIn next.allocations = overridesIn planning.allocations ++ overrides ∧
          next.remainingByProduct = planning.remainingByProduct
  | [], planning, next, h, hrun => by
      obtain rfl := Except.ok.inj hrun
      exact ⟨h, (List.append_nil _).symm, rfl⟩
  | override :: overrides, planning, next, h, hrun => by
      rw [List.foldlM_cons, except_bind_eq_ok] at hrun
      obtain ⟨middle, hstep, hrest⟩ := hrun
      obtain ⟨hmiddle, hoverrides, hproducts⟩ := h.applyOverride hdistinct hstep
      obtain ⟨hnext, hoverrides', hproducts'⟩ := hmiddle.applyOverrides hdistinct hrest
      refine ⟨hnext, ?_, hproducts'.trans hproducts⟩
      rw [hoverrides', hoverrides, List.append_assoc]
      rfl

/-! ## Filling the lines -/

/-- What the lines of a product leave open so far. -/
def Planning.backlogOf (planning : Planning) (productId : Id) : Num :=
  ((Table.lookup Prod.fst productId planning.remainingByProduct).map (·.2)).getD 0

theorem backlogOf_addBackorder (remaining : Num) (productId : Id) :
    (planning.addBackorder id line remaining).backlogOf productId =
      planning.backlogOf productId + if line.productId = productId then remaining else 0 := by
  unfold Planning.backlogOf Planning.addBackorder
  rw [Table.lookup_upsert]
  by_cases hproduct : line.productId = productId
  · rw [if_pos hproduct, if_pos hproduct, ← hproduct]
    rfl
  · rw [if_neg hproduct, if_neg hproduct, add_zero]

/-- The lines `done` have been filled. -/
structure Filled (input : PlanInput) (done : List QuoteLine) (planning : Planning) : Prop where
  shared : Shared input planning
  distinct : Table.Distinct Prod.fst planning.remainingByProduct
  backlog : ∀ productId,
    planning.backlogOf productId = ((linesOf done productId).map planning.remainingOf).sum
  spent : ∀ line ∈ done, 0 < planning.remainingOf line →
    ∀ warehouse ∈ input.warehouses, Spent input planning (warehouse.id, line.productId)
  overrides : overridesIn planning.allocations = input.overrides

theorem sum_remaining_append (done : List QuoteLine) (productId : Id) (remaining : QuoteLine → Num) :
    ((linesOf (done ++ [line]) productId).map remaining).sum =
      ((linesOf done productId).map remaining).sum + if line.productId = productId then remaining line else 0 := by
  unfold linesOf
  rw [List.filter_append, List.map_append, List.sum_append]
  by_cases hproduct : line.productId = productId
  · simp [hproduct]
  · simp [hproduct]

/-- What filling a line can do. -/
theorem took_fillLine (hlines : OneProduct input.lines) (h : Planned input planning) (hline : line ∈ input.lines) :
    ∃ loop, Took input line (planning, planning.remainingOf line) loop ∧
      (0 < loop.2 → ∀ warehouse ∈ input.warehouses, Spent input loop.1 (warehouse.id, line.productId)) ∧
        planning.fillLine id input input.ranked line = (loop.1.setRemaining line loop.2).addBackorder id
          line loop.2 := by
  have hwarehouses : ∀ warehouse ∈ planning.byAvailability id input.ranked line, warehouse ∈ input.warehouses :=
    fun warehouse hwarehouse => mem_ranked.mp (mem_byAvailability.mp hwarehouse)
  obtain ⟨htook, hspent⟩ := took_foldl hlines hline (planning, planning.remainingOf line) hwarehouses h
  exact ⟨_, htook, fun hwants warehouse hwarehouse =>
    hspent hwants warehouse (mem_byAvailability.mpr (mem_ranked.mpr hwarehouse)), rfl⟩

theorem Filled.fillLine (hdistinct : (input.lines.map (·.id)).Nodup) {done : List QuoteLine}
    (h : Filled input done planning) (hline : line ∈ input.lines)
    (hnew : ∀ other ∈ done, line.id ≠ other.id) :
    Filled input (done ++ [line]) (planning.fillLine id input input.ranked line) := by
  have hlines := oneProduct_of_distinct hdistinct
  have hplanned := h.shared.planned.fillLine hlines hline fun _ => mem_ranked.mp
  obtain ⟨loop, htook, hspent, hfill⟩ := took_fillLine hlines h.shared.planned hline
  have hremaining : ∀ other, (planning.fillLine id input input.ranked line).remainingOf other =
      if line.id = other.id then loop.2 else planning.remainingOf other := by
    intro other
    rw [hfill]
    refine (remainingOf_setRemaining loop.2 other).trans ?_
    unfold Planning.remainingOf
    rw [htook.byLine]
  have hallocations : (planning.fillLine id input input.ranked line).allocations = loop.1.allocations := by
    rw [hfill]
    rfl
  have hkept : ∀ other ∈ done, (planning.fillLine id input input.ranked line).remainingOf other =
      planning.remainingOf other := fun other hother => by rw [hremaining, if_neg (hnew other hother)]
  have hsame : (planning.fillLine id input input.ranked line).remainingOf line = loop.2 := by
    rw [hremaining, if_pos rfl]
  refine
    { shared := h.shared.give hdistinct hline (planning.remainingOf line - loop.2) hplanned ?_ ?_ ?_
      distinct := ?_
      backlog := ?_
      spent := ?_
      overrides := ?_ }
  · intro lineId
    rw [hallocations]
    exact htook.allocated lineId
  · intro other
    rw [hremaining, sub_sub_cancel]
  · rcases le_total (planning.remainingOf line) 0 with hidle | hwants
    · exact .inl (by rw [htook.idle hidle, sub_self])
    · exact .inr (sub_le_self _ (htook.nonneg hwants))
  · rw [hfill]
    refine Table.distinct_upsert ?_ _
    show Table.Distinct Prod.fst loop.1.remainingByProduct
    rw [htook.byProduct]
    exact h.distinct
  · intro productId
    have hbacklog : loop.1.backlogOf productId = planning.backlogOf productId := by
      unfold Planning.backlogOf
      rw [htook.byProduct]
    have hbefore : (linesOf done productId).map (planning.fillLine id input input.ranked line).remainingOf =
        (linesOf done productId).map planning.remainingOf :=
      List.map_congr_left fun other hother => hkept other (List.mem_of_mem_filter hother)
    rw [sum_remaining_append, hbefore, hsame, ← h.backlog, ← hbacklog, hfill]
    exact backlogOf_addBackorder loop.2 productId
  · intro other hother hwants warehouse hwarehouse
    unfold Spent
    rw [hallocations]
    rcases List.mem_append.mp hother with hother | hother
    · rw [hkept other hother] at hwants
      exact htook.spent (h.spent other hother hwants warehouse hwarehouse)
    · obtain rfl := List.mem_singleton.mp hother
      rw [hsame] at hwants
      exact hspent hwants warehouse hwarehouse
  · rw [hallocations, htook.overrides]
    exact h.overrides

theorem Filled.fillLines (hdistinct : (input.lines.map (·.id)).Nodup) :
    ∀ {rest done : List QuoteLine} {planning : Planning}, Filled input done planning → done ++ rest = input.lines →
      Filled input input.lines (rest.foldl (Planning.fillLine id input input.ranked) planning)
  | [], done, planning, h, hlines => by
      rw [List.append_nil] at hlines
      rw [← hlines]
      exact h
  | line :: rest, done, planning, h, hlines => by
      have hline : line ∈ input.lines := by
        rw [← hlines]
        exact List.mem_append_right _ List.mem_cons_self
      have hnew : ∀ other ∈ done, line.id ≠ other.id := by
        intro other hother hid
        have hids := hdistinct
        rw [← hlines, List.map_append, List.nodup_append] at hids
        exact hids.2.2 other.id (List.mem_map_of_mem hother) line.id (List.mem_map_of_mem List.mem_cons_self) hid.symm
      have hstep := h.fillLine hdistinct hline hnew
      exact hstep.fillLines hdistinct (by rw [List.append_assoc]; exact hlines)

end Steps

/-! ## The finished plan -/

theorem sum_filter_pos {α : Type*} (f : α → Num) (l : List α) :
    ((l.filter fun x => 0 < f x).map f).sum = (l.map fun x => max 0 (f x)).sum := by
  induction l with
  | nil => rfl
  | cons x l ih =>
      rw [List.map_cons, List.sum_cons, List.filter_cons]
      by_cases hpos : 0 < f x
      · rw [if_pos (decide_eq_true hpos), List.map_cons, List.sum_cons, ih, max_eq_right hpos.le]
      · rw [if_neg (by simpa using hpos), ih, max_eq_left (not_lt.mp hpos), zero_add]

theorem backorders_finish (input : PlanInput) (planning : Planning) (fl) :
    (planning.finish fl input).backorders.map (fun item => (item.productId, item.quantity)) =
      planning.remainingByProduct.filter fun entry => 0 < entry.2 := by
  unfold Planning.finish
  dsimp only
  rw [List.mapIdx_eq_zipIdx_map, List.map_map]
  exact List.zipIdx_map_fst 0 _

/-- The backorder of a product is what its lines leave open. -/
theorem backorderFor_finish {input : PlanInput} {planning : Planning}
    (hdistinct : Table.Distinct Prod.fst planning.remainingByProduct) (productId : Id) :
    backorderFor (planning.finish id input).backorders productId = max 0 (planning.backlogOf productId) := by
  have hpairs : backorderFor (planning.finish id input).backorders productId =
      ((((planning.finish id input).backorders.map fun item => (item.productId, item.quantity)).filter
        fun entry => entry.1 = productId).map (·.2)).sum := by
    rw [List.filter_map, List.map_map]
    rfl
  have hkey := Table.sum_of_key (fun entry : Id × Num => max 0 entry.2) productId hdistinct
  have hswap : (planning.remainingByProduct.filter fun entry => 0 < entry.2).filter (fun entry => entry.1 = productId) =
      (planning.remainingByProduct.filter fun entry => entry.1 = productId).filter fun entry => 0 < entry.2 := by
    rw [List.filter_filter, List.filter_filter]
    exact List.filter_congr fun _ _ => Bool.and_comm _ _
  rw [hpairs, backorders_finish, hswap, sum_filter_pos, hkey]
  unfold Planning.backlogOf
  cases Table.lookup Prod.fst productId planning.remainingByProduct with
  | none => exact (max_self 0).symm
  | some entry => rfl

section Plan

variable {input : PlanInput} {plan : FulfillmentPlan}

/-- Before the lines there are the overrides. -/
theorem filled_of_overrides (hdistinct : (input.lines.map (·.id)).Nodup) {overridden : Planning}
    (h : input.overrides.foldlM (Planning.applyOverride id input) { stockLeft := input.stock } = .ok overridden) :
    Filled input [] overridden := by
  obtain ⟨hshared, hcarried, hproducts⟩ := Shared.start.applyOverrides hdistinct h
  exact
    { shared := hshared
      distinct := by
        rw [hproducts]
        exact List.nodup_nil
      backlog := fun productId => by
        unfold Planning.backlogOf
        rw [hproducts]
        rfl
      spent := fun _ hline => absurd hline List.not_mem_nil
      overrides := hcarried }

theorem filled_of_plan (hdistinct : (input.lines.map (·.id)).Nodup) (h : planFulfillment id input = .ok plan) :
    ∃ planning, Filled input input.lines planning ∧ plan = planning.finish id input := by
  obtain ⟨overridden, hoverrides, hplan⟩ := planFulfillment_runs h
  exact ⟨_, (filled_of_overrides hdistinct hoverrides).fillLines hdistinct (List.nil_append _), hplan⟩

/-- What a line wants of the planner. -/
def wantedFor (lines : List QuoteLine) (productId : Id) : Num :=
  ((linesOf lines productId).map fun line => max 0 line.quantity).sum

def demandFor (lines : List QuoteLine) (productId : Id) : Num :=
  ((linesOf lines productId).map (·.quantity)).sum

theorem Filled.allocated_add_backlog {planning : Planning} (h : Filled input input.lines planning)
    (productId : Id) :
    allocatedFor input.lines planning.allocations productId + planning.backlogOf productId =
      demandFor input.lines productId := by
  rw [h.backlog, allocatedFor, ← List.sum_map_add, demandFor]
  refine congrArg List.sum (List.map_congr_left fun line hline => ?_)
  exact h.shared.split line (List.mem_of_mem_filter hline)

theorem Filled.allocated_le {planning : Planning} (h : Filled input input.lines planning) (productId : Id) :
    allocatedFor input.lines planning.allocations productId ≤ wantedFor input.lines productId :=
  List.sum_le_sum fun line hline => h.shared.share line (List.mem_of_mem_filter hline)

/-- With distinct lines of positive quantities, an exact plan gives each product what its lines ask or backorders
the rest, a line no more than its quantity and a warehouse no more than was available, carries out every override
as it is asked, and backorders a product only where every warehouse has given all it had. -/
theorem exact_plan_conservative (hdistinct : (input.lines.map (·.id)).Nodup)
    (hquantities : ∀ line ∈ input.lines, 0 < line.quantity) (h : planFulfillment id input = .ok plan) :
    (∀ productId, allocatedFor input.lines plan.allocations productId + backorderFor plan.backorders productId =
        demandFor input.lines productId) ∧
      (∀ line ∈ input.lines, allocatedTo plan.allocations line.id ≤ line.quantity) ∧
      (∀ key, heldBy input.lines plan.allocations key ≤ available id (findRow input.stock key)) ∧
      overridesIn plan.allocations = input.overrides ∧
      (∀ split ∈ plan.allocations, SplitOf input split) ∧
      (∀ item ∈ plan.backorders, 0 < item.quantity) ∧
      ∀ item ∈ plan.backorders, ∀ warehouse ∈ input.warehouses,
        heldBy input.lines plan.allocations (warehouse.id, item.productId) =
          available id (findRow input.stock (warehouse.id, item.productId)) := by
  obtain ⟨planning, hfilled, rfl⟩ := filled_of_plan hdistinct h
  have hbackorder : ∀ item ∈ (planning.finish id input).backorders,
      (item.productId, item.quantity) ∈ planning.remainingByProduct ∧ 0 < item.quantity := by
    intro item hitem
    have hmem := List.mem_map_of_mem (f := fun item => (item.productId, item.quantity)) hitem
    rw [backorders_finish] at hmem
    exact ⟨List.mem_of_mem_filter hmem, of_decide_eq_true (List.mem_filter.mp hmem).2⟩
  have hshare : ∀ line ∈ input.lines, allocatedTo planning.allocations line.id ≤ line.quantity := by
    intro line hline
    have hle := hfilled.shared.share line hline
    rwa [max_eq_right (hquantities line hline).le] at hle
  refine ⟨fun productId => ?_, hshare, hfilled.shared.planned.capacity, hfilled.overrides,
    hfilled.shared.planned.splits, fun item hitem => (hbackorder item hitem).2, fun item hitem => ?_⟩
  · have hnonneg : 0 ≤ planning.backlogOf productId := by
      rw [hfilled.backlog]
      refine List.sum_nonneg fun x hx => ?_
      obtain ⟨line, hline, rfl⟩ := List.mem_map.mp hx
      have hmem := List.mem_of_mem_filter hline
      have hsplit := hfilled.shared.split line hmem
      linarith [hshare line hmem]
    rw [backorderFor_finish hfilled.distinct, max_eq_right hnonneg]
    exact hfilled.allocated_add_backlog productId
  · obtain ⟨hmem, hpositive⟩ := hbackorder item hitem
    have hlookup := Table.lookup_of_mem hfilled.distinct hmem
    have hbacklog := hfilled.backlog item.productId
    have hopen : ∃ line ∈ linesOf input.lines item.productId, 0 < planning.remainingOf line := by
      by_contra hnone
      push Not at hnone
      have hle : ((linesOf input.lines item.productId).map planning.remainingOf).sum ≤ 0 := by
        have hsum := List.sum_le_sum (g := fun _ => 0) hnone
        simpa using hsum
      rw [← hbacklog, Planning.backlogOf, hlookup] at hle
      exact absurd hle (not_le.mpr hpositive)
    obtain ⟨line, hline, hwants⟩ := hopen
    obtain ⟨hmem, hproduct⟩ := List.mem_filter.mp hline
    have hproduct : line.productId = item.productId := of_decide_eq_true hproduct
    rw [← hproduct]
    exact hfilled.spent line hmem hwants

end Plan

end DealFlow360
