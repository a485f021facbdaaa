import DealFlow360.PlanTotals

/-!
# Planning and reserving agree

A plan takes from the rows it was drawn against. Moving the reservations over
to it finds every row, never meets a row that is full, and leaves each with
what was reserved before, less what the plan before held, and what the plan
holds.

The reservation moves splits one by one with `mutateReserved`; `Lib.Ledger`
says what a list of such moves comes to. `Room` is what is needed for the
splits still to be reserved: their rows are there and have enough left.

- `Planned.drawn`: what a plan gives is drawn from what is free on a row of the
  table;
- `Planned.room`: once the splits before are released, there is room for the
  plan;
- `Planned.reserves_iff`: reserving throws exactly where a row of the plan
  before is missing;
- `exact_plan_reserves`: every row's reserved quantity afterwards.

All of it is at the exact instance of the planner; what doubles make of it is
in the module after this one.
-/

namespace DealFlow360

open Ledger Program

section Reserving

variable {productOf : Id → Option Id} {stock stock' : List StockLevel} {split : FulfillmentSplit}

/-- The row of a split is in the table; a backorder has none. -/
def Booked (productOf : Id → Option Id) (stock : List StockLevel) (split : FulfillmentSplit) : Prop :=
  split.isBackorder = true ∨ ∃ row ∈ stock, splitAccount productOf split = some row.key

instance (productOf : Id → Option Id) (stock : List StockLevel) (split : FulfillmentSplit) :
    Decidable (Booked productOf stock split) :=
  inferInstanceAs (Decidable (_ ∨ _))

theorem Booked.congr (h : Booked productOf stock split)
    (hkeys : stock'.map StockLevel.key = stock.map StockLevel.key) : Booked productOf stock' split := by
  refine h.imp_right fun ⟨row, hrow, haccount⟩ => ?_
  have hmem := List.mem_map_of_mem (f := StockLevel.key) hrow
  rw [← hkeys] at hmem
  obtain ⟨row', hrow', hkey⟩ := List.mem_map.mp hmem
  exact ⟨row', hrow', haccount.trans (congrArg some hkey.symm)⟩

/-- A mutation throws exactly where the row is missing. -/
theorem mutateReserved_isOk_iff (delta : Num) :
    (∃ stock', mutateReserved id productOf stock split delta = .ok stock') ↔ Booked productOf stock split := by
  unfold mutateReserved Booked splitAccount splitRow
  by_cases hbackorder : split.isBackorder = true
  · rw [if_pos hbackorder]
    exact iff_of_true ⟨stock, rfl⟩ (.inl hbackorder)
  · rw [if_neg hbackorder, or_iff_right hbackorder, if_neg hbackorder]
    cases hproduct : productOf split.quoteLineId with
    | none => simp
    | some productId =>
        simp only [Option.bind_some, Option.map_some, Option.some.injEq]
        cases hrow : findRow stock (split.warehouseId, productId) with
        | none =>
            refine iff_of_false nofun fun ⟨row, hmem, hkey⟩ => ?_
            exact Table.lookup_eq_none.mp hrow row hmem hkey.symm
        | some row =>
            exact iff_of_true ⟨_, rfl⟩ ⟨row, Table.mem_of_lookup hrow, (Table.key_of_lookup hrow).symm⟩

theorem release_isOk_iff : ∀ {previous : List FulfillmentSplit} {stock : List StockLevel},
    (∃ stock', previous.foldlM (fun stock split => mutateReserved id productOf stock split (-split.quantity)) stock =
        .ok stock') ↔
      ∀ split ∈ previous, Booked productOf stock split
  | [], stock => iff_of_true ⟨stock, rfl⟩ fun _ hsplit => absurd hsplit List.not_mem_nil
  | split :: previous, stock => by
      simp only [List.foldlM_cons, except_bind_eq_ok, List.forall_mem_cons]
      constructor
      · rintro ⟨stock', middle, hstep, hrest⟩
        obtain ⟨hkeys, -⟩ := mutateReserved_rows hstep
        refine ⟨(mutateReserved_isOk_iff _).mp ⟨middle, hstep⟩, fun other hother => ?_⟩
        exact (release_isOk_iff.mp ⟨stock', hrest⟩ other hother).congr hkeys.symm
      · rintro ⟨hfirst, hrest⟩
        obtain ⟨middle, hstep⟩ := (mutateReserved_isOk_iff (-split.quantity)).mpr hfirst
        obtain ⟨hkeys, -⟩ := mutateReserved_rows hstep
        obtain ⟨stock', hstock'⟩ := release_isOk_iff.mpr fun other hother => (hrest other hother).congr hkeys
        exact ⟨stock', middle, hstep, hstock'⟩

/-- Room on every row for what is reserved and for what is to be reserved. -/
def Room (hold : StockKey → Num) (stock : List StockLevel) : Prop :=
  ∀ key row, findRow stock key = some row → 0 < hold key → row.reserved + hold key ≤ row.quantityOnHand

/-- Reserving one split leaves its row within what is on hand, and room for the rest. -/
theorem Room.mutate {next : List FulfillmentSplit} {middle : List StockLevel}
    (hroom : Room (sumAt (splitAccount productOf) (·.quantity) (split :: next)) stock)
    (hpositive : ∀ other ∈ split :: next, 0 < other.quantity)
    (hreserved : ∀ key row, findRow stock key = some row → 0 ≤ row.reserved)
    (hmutated : mutateReserved id productOf stock split split.quantity = .ok middle) :
    (∀ key row, findRow middle key = some row → ∃ before, findRow stock key = some before ∧
        row = stockAccounts.credit (if splitAccount productOf split = some key then split.quantity else 0) before) ∧
      (∀ key row, findRow middle key = some row → 0 ≤ row.reserved) ∧
      Room (sumAt (splitAccount productOf) (·.quantity) next) middle ∧
        ∀ key row, splitAccount productOf split = some key → findRow middle key = some row →
          row.reserved ≤ row.quantityOnHand := by
  have hquantity := hpositive split List.mem_cons_self
  have hsum (key : StockKey) : 0 ≤ sumAt (splitAccount productOf) (·.quantity) next key :=
    sumAt_nonneg (fun other hother => (hpositive other (List.mem_cons_of_mem _ hother)).le) key
  have hmoved := mutateReserved_moved hmutated fun key row _ hrow =>
    add_nonneg (hreserved key row hrow) hquantity.le
  have hbefore : ∀ key row, findRow middle key = some row → ∃ before, findRow stock key = some before ∧
      row = stockAccounts.credit (if splitAccount productOf split = some key then split.quantity else 0) before := by
    intro key row hrow
    have hlookup := hmoved.rows key
    rw [show Table.lookup stockAccounts.key key middle = some row from hrow] at hlookup
    obtain ⟨before, hfound, hcredit⟩ := Option.map_eq_some_iff.mp hlookup.symm
    exact ⟨before, hfound, hcredit.symm⟩
  refine ⟨hbefore, ?_, ?_, ?_⟩
  · intro key row hrow
    obtain ⟨before, hstock, rfl⟩ := hbefore key row hrow
    show 0 ≤ before.reserved + _
    have hnonneg := hreserved key before hstock
    split
    · linarith
    · linarith
  · intro key row hrow hwants
    obtain ⟨before, hstock, rfl⟩ := hbefore key row hrow
    have hspace := hroom key before hstock
    rw [sumAt_cons] at hspace
    show before.reserved + _ + _ ≤ before.quantityOnHand
    split at hspace
    · rename_i haccount
      rw [if_pos haccount]
      have hle := hspace (by linarith)
      linarith
    · rename_i haccount
      rw [if_neg haccount]
      have hle := hspace (by linarith)
      linarith
  · intro key row haccount hrow
    obtain ⟨before, hstock, rfl⟩ := hbefore key row hrow
    have hspace := hroom key before hstock
    have hrest := hsum key
    rw [sumAt_cons, if_pos haccount] at hspace
    have hle := hspace (by linarith)
    rw [if_pos haccount]
    show before.reserved + split.quantity ≤ before.quantityOnHand
    linarith

/-- A row within what is on hand passes the check. -/
theorem reserveNext_eq_ok {fl : Rounding} {middle : List StockLevel} (hshipped : split.isBackorder = false)
    (hmutated : mutateReserved fl productOf stock split split.quantity = .ok middle)
    (hfits : ∀ key row, splitAccount productOf split = some key → findRow middle key = some row →
      row.reserved ≤ fl (row.quantityOnHand + stockTolerance)) :
    reserveNext fl productOf stock split = .ok middle := by
  unfold reserveNext
  rw [hmutated]
  dsimp only [bind, Except.bind]
  cases hrow : splitRow productOf middle split with
  | none => rfl
  | some row =>
      obtain ⟨productId, hproduct, hfound⟩ := Option.bind_eq_some_iff.mp hrow
      have haccount : splitAccount productOf split = some (split.warehouseId, productId) := by
        rw [splitAccount, hshipped, hproduct]
        rfl
      exact if_neg (not_lt.mpr (hfits _ row haccount hfound))

theorem stockTolerance_nonneg : 0 ≤ stockTolerance := Doubles.double_nonneg (by norm_num)

/-- Splits that have room are reserved. -/
theorem reserve_isOk : ∀ {next : List FulfillmentSplit} (stock : List StockLevel),
    (∀ split ∈ next, 0 < split.quantity) → (∀ split ∈ next, split.isBackorder = false) →
      (∀ split ∈ next, Booked productOf stock split) →
        (∀ key row, findRow stock key = some row → 0 ≤ row.reserved) →
          Room (sumAt (splitAccount productOf) (·.quantity) next) stock →
            ∃ stock', next.foldlM (reserveNext id productOf) stock = .ok stock'
  | [], stock, _, _, _, _, _ => ⟨stock, rfl⟩
  | split :: next, stock, hpositive, hshipped, hbooked, hreserved, hroom => by
      obtain ⟨middle, hmutated⟩ :=
        (mutateReserved_isOk_iff split.quantity).mpr (hbooked split List.mem_cons_self)
      obtain ⟨-, hreserved', hroom', hfits⟩ := hroom.mutate hpositive hreserved hmutated
      obtain ⟨hkeys, -⟩ := mutateReserved_rows hmutated
      have hcheck : reserveNext id productOf stock split = .ok middle :=
        reserveNext_eq_ok (hshipped split List.mem_cons_self) hmutated fun key row haccount hrow =>
          (hfits key row haccount hrow).trans (le_add_of_nonneg_right stockTolerance_nonneg)
      obtain ⟨stock', hstock'⟩ := reserve_isOk middle
        (fun other hother => hpositive other (List.mem_cons_of_mem _ hother))
        (fun other hother => hshipped other (List.mem_cons_of_mem _ hother))
        (fun other hother => (hbooked other (List.mem_cons_of_mem _ hother)).congr hkeys) hreserved' hroom'
      refine ⟨stock', ?_⟩
      rw [List.foldlM_cons, hcheck]
      exact hstock'

end Reserving

/-! ## A plan against its stock -/

section Plan

variable {input : PlanInput} {planning : Planning} {previous : List FulfillmentSplit}

/-- What a plan gives is drawn from what is free on a row of the table. -/
theorem Planned.drawn (h : Planned input planning) (hlines : OneProduct input.lines) :
    ∀ split ∈ planning.allocations, ∃ row ∈ input.stock,
      splitAccount (productByLineId input.lines) split = some row.key ∧ findRow input.stock row.key = some row ∧
        split.quantity ≤ row.quantityOnHand - row.reserved := by
  intro split hsplit
  obtain ⟨hpositive, hshipped, ⟨line, hline, hlineId⟩, -⟩ := h.splits split hsplit
  have haccount : splitAccount (productByLineId input.lines) split = some (split.warehouseId, line.productId) := by
    rw [splitAccount, hshipped, ← hlineId, hlines line hline]
    rfl
  have hheld : split.quantity ≤ heldBy input.lines planning.allocations (split.warehouseId, line.productId) := by
    refine List.single_le_sum (fun x hx => ?_) _ (List.mem_map_of_mem ?_)
    · obtain ⟨other, hother, rfl⟩ := List.mem_map.mp hx
      exact (h.splits other (List.mem_of_mem_filter hother)).positive.le
    · exact List.mem_filter.mpr ⟨hsplit, decide_eq_true haccount⟩
  have hcapacity := h.capacity (split.warehouseId, line.productId)
  obtain ⟨row, hrow, havailable⟩ := available_pos (by linarith :
    0 < available id (findRow input.stock (split.warehouseId, line.productId)))
  have hkey : row.key = (split.warehouseId, line.productId) := Table.key_of_lookup hrow
  rw [havailable] at hcapacity
  rw [← hkey] at haccount hrow
  exact ⟨row, Table.mem_of_lookup hrow, haccount, hrow, hheld.trans hcapacity⟩

theorem Planned.booked (h : Planned input planning) (hlines : OneProduct input.lines) :
    ∀ split ∈ planning.allocations, Booked (productByLineId input.lines) input.stock split := by
  intro split hsplit
  obtain ⟨row, hrow, haccount, -⟩ := h.drawn hlines split hsplit
  exact .inr ⟨row, hrow, haccount⟩

/-- Once the splits before are released there is room for the plan. -/
theorem Planned.room (h : Planned input planning) {middle : List StockLevel}
    (hprevious : ∀ split ∈ previous, 0 ≤ split.quantity)
    (hreserved : ∀ key row, findRow input.stock key = some row → 0 ≤ row.reserved)
    (hrows : ∀ key, findRow middle key =
      (findRow input.stock key).map (released (heldBy input.lines previous key))) :
    Room (heldBy input.lines planning.allocations) middle := by
  intro key row hrow hwants
  rw [hrows key] at hrow
  obtain ⟨before, hfound, rfl⟩ := Option.map_eq_some_iff.mp hrow
  have hcapacity := h.capacity key
  obtain ⟨found, hsame, havailable⟩ := available_pos (hwants.trans_le hcapacity)
  obtain rfl := Option.some.inj (hfound.symm.trans hsame)
  rw [havailable] at hcapacity
  have hheld : 0 ≤ heldBy input.lines previous key := sumAt_nonneg hprevious key
  have hrelease : max 0 (before.reserved - heldBy input.lines previous key) ≤ before.reserved :=
    max_le (hreserved key before hfound) (sub_le_self _ hheld)
  show max 0 (before.reserved - heldBy input.lines previous key) +
    heldBy input.lines planning.allocations key ≤ before.quantityOnHand
  linarith

/-- Reserving a plan in place of the one before throws exactly where a row of the one before is missing. -/
theorem Planned.reserves_iff (h : Planned input planning) (hlines : OneProduct input.lines)
    (hprevious : ∀ split ∈ previous, 0 ≤ split.quantity)
    (hreserved : ∀ key row, findRow input.stock key = some row → 0 ≤ row.reserved) :
    (∃ stock', reserveStock id (productByLineId input.lines) input.stock previous planning.allocations = .ok stock') ↔
      ∀ split ∈ previous, Booked (productByLineId input.lines) input.stock split := by
  rw [← release_isOk_iff]
  constructor
  · rintro ⟨stock', hreserve⟩
    obtain ⟨middle, hrelease, -⟩ := except_bind_eq_ok.mp hreserve
    exact ⟨middle, hrelease⟩
  · rintro ⟨middle, hrelease⟩
    obtain ⟨hkeys, hrows⟩ := release_rows hprevious hreserved hrelease
    obtain ⟨stock', hreserve⟩ := reserve_isOk middle (fun split hsplit => (h.splits split hsplit).positive)
      (fun split hsplit => (h.splits split hsplit).shipped)
      (fun split hsplit => (h.booked hlines split hsplit).congr hkeys)
      (fun key row hrow => by
        rw [hrows key] at hrow
        obtain ⟨before, -, rfl⟩ := Option.map_eq_some_iff.mp hrow
        exact le_max_left _ _) (h.room hprevious hreserved hrows)
    exact ⟨stock', except_bind_eq_ok.mpr ⟨middle, hrelease, hreserve⟩⟩

/-- Against a table of distinct rows that are reserved for no more than is on hand, a plan is reserved in place of
splits that the rows are reserved for: each row is moved by what the plan holds there less what those held, stays
within what is on hand, and nothing else about it changes. -/
theorem exact_plan_reserves {plan : FulfillmentPlan} (hlines : OneProduct input.lines)
    (hdistinct : Table.Distinct StockLevel.key input.stock)
    (hstock : ∀ row ∈ input.stock, 0 ≤ row.reserved ∧ row.reserved ≤ row.quantityOnHand)
    (hprevious : ∀ split ∈ previous, 0 ≤ split.quantity)
    (hbooked : ∀ split ∈ previous, Booked (productByLineId input.lines) input.stock split)
    (hheld : ∀ row ∈ input.stock, heldBy input.lines previous row.key ≤ row.reserved)
    (h : planFulfillment id input = .ok plan) :
    ∃ stock', reserveStock id (productByLineId input.lines) input.stock previous plan.allocations = .ok stock' ∧
      stock' = input.stock.map (fun row =>
        { row with
          reserved := row.reserved - heldBy input.lines previous row.key +
            heldBy input.lines plan.allocations row.key }) ∧
      ∀ row ∈ stock', 0 ≤ row.reserved ∧ row.reserved ≤ row.quantityOnHand := by
  obtain ⟨planning, hplanned, hallocations⟩ := planned_of_plan hlines h
  rw [← hallocations]
  have hreserved : ∀ key row, findRow input.stock key = some row → 0 ≤ row.reserved :=
    fun key row hrow => (hstock row (Table.mem_of_lookup hrow)).1
  obtain ⟨stock', hreserve⟩ := (hplanned.reserves_iff hlines hprevious hreserved).mpr hbooked
  have hmoved := reserveStock_moved hprevious (fun split hsplit => (hplanned.splits split hsplit).positive.le)
    (fun key row hrow => by
      have hrow' := hheld row (Table.mem_of_lookup hrow)
      rwa [show row.key = key from Table.key_of_lookup hrow] at hrow') hreserve
  have hmap : stock' = input.stock.map fun row =>
      { row with
        reserved :=
          row.reserved - heldBy input.lines previous row.key + heldBy input.lines planning.allocations row.key } := by
    rw [hmoved.eq_map hdistinct]
    refine List.map_congr_left fun row _ => ?_
    show { row with
      reserved := row.reserved +
        (heldBy input.lines planning.allocations row.key - heldBy input.lines previous row.key) } = _
    congr 1
    ring
  refine ⟨stock', hreserve, hmap, ?_⟩
  rw [hmap]
  intro row hrow
  obtain ⟨before, hbefore, rfl⟩ := List.mem_map.mp hrow
  obtain ⟨hnonneg, hroom⟩ := hstock before hbefore
  have hcapacity := hplanned.capacity before.key
  rw [show findRow input.stock before.key = some before from Table.lookup_of_mem hdistinct hbefore, available,
    id_eq, max_eq_right (sub_nonneg.mpr hroom)] at hcapacity
  have hbefore' := hheld before hbefore
  have hgiven : 0 ≤ heldBy input.lines previous before.key := sumAt_nonneg hprevious before.key
  have htaken := hplanned.held_nonneg before.key
  constructor
  · show 0 ≤ before.reserved - _ + _
    linarith
  · show before.reserved - _ + _ ≤ before.quantityOnHand
    linarith

end Plan

end DealFlow360
