import DealFlow360.Consumption
import DealFlow360.DoublePlanning
import DealFlow360.QuoteLines

/-!
# The ledger of reserved stock

What is reserved is kept twice, on the stock rows and in the allocations of the
quotes. Planning moves both together, and by the same amounts as long as no sum
has to be rounded: as long as the quantities a call plans with are counted in
one unit. The catalog writes whole stock rows and never asks what the quotes
hold there. The two sides agree in every run in which such a row is written
with the reservation it has and every call plans with counted quantities.

`held` is what the quotes hold on a row, `Balanced` the books of one stock
table, `StockLedger` the invariant of the service: the books, and what the rest
of a world has to be for a plan to keep them. Requests that plan nothing leave
what is held row by row (`held_serve`) and, the catalog aside, the stock
(`stock_serve`); a plan moves both sides alike (`Balanced.plan`).
`stock_ledger` is the run.

The condition has two parts, one on requests that write stock rows and one on
planning calls; every other request keeps the ledger whatever it is.
`stock_forgotten` is a product update that restates its stock.
-/

namespace DealFlow360

open Doubles Ledger Program

/-- What the allocations of all quotes hold on a row. -/
def held (quotes : List QuoteAggregate) (key : StockKey) : Num :=
  (quotes.map fun q => heldBy q.lines q.allocations key).sum

/-- Every row is reserved for what is held there, and for no more than is on hand. -/
structure Balanced (hold : StockKey → Num) (stock : List StockLevel) : Prop where
  distinct : Table.Distinct StockLevel.key stock
  reserved : ∀ row ∈ stock, row.reserved = hold row.key
  onHand : ∀ row ∈ stock, row.reserved ≤ row.quantityOnHand

/-- The books: quotes hold what the rows are reserved for. -/
structure StockLedger (w : World) : Prop where
  indexed : w.Indexed
  lines : ∀ q ∈ w.store.quotes, LinesIdentified w.nextUuid q
  allocated : ∀ q ∈ w.store.quotes, AllocatedWhileWon q
  products : ProductsKnown w
  quantities : ∀ q ∈ w.store.quotes, ∀ split ∈ q.allocations, 0 ≤ split.quantity
  balanced : Balanced (held w.store.quotes) w.store.stock

/-! ## What quotes hold -/

theorem heldBy_nil (lines : List QuoteLine) (key : StockKey) : heldBy lines [] key = 0 := rfl

theorem held_nonneg {quotes : List QuoteAggregate}
    (h : ∀ q ∈ quotes, ∀ split ∈ q.allocations, 0 ≤ split.quantity) (key : StockKey) :
    0 ≤ held quotes key := by
  refine List.sum_nonneg fun x hx => ?_
  obtain ⟨q, hq, rfl⟩ := List.mem_map.mp hx
  exact sumAt_nonneg (h q hq) key

theorem heldBy_le_held {quotes : List QuoteAggregate}
    (h : ∀ q ∈ quotes, ∀ split ∈ q.allocations, 0 ≤ split.quantity) {q : QuoteAggregate}
    (hq : q ∈ quotes) (key : StockKey) : heldBy q.lines q.allocations key ≤ held quotes key := by
  refine List.single_le_sum (fun x hx => ?_) _ (List.mem_map_of_mem hq)
  obtain ⟨other, hother, rfl⟩ := List.mem_map.mp hx
  exact sumAt_nonneg (h other hother) key

/-- Storing a quote again changes what is held by what it holds now less what it held. -/
theorem held_upsert {quotes : List QuoteAggregate} (hd : Table.Distinct QuoteAggregate.id quotes)
    {q q' : QuoteAggregate} (hq : q ∈ quotes) (hid : q'.id = q.id) (key : StockKey) :
    held (Table.upsert QuoteAggregate.id q' quotes) key
      = held quotes key + heldBy q'.lines q'.allocations key - heldBy q.lines q.allocations key := by
  have hlookup := Table.lookup_of_mem hd hq
  rw [← hid] at hlookup
  unfold held
  rw [Table.sum_upsert, hlookup]
  rfl

/-- A quote of its own without allocations holds nothing. -/
theorem held_upsert_new {quotes : List QuoteAggregate} {q' : QuoteAggregate}
    (hnew : ∀ q ∈ quotes, q.id ≠ q'.id) (hnone : q'.allocations = []) (key : StockKey) :
    held (Table.upsert QuoteAggregate.id q' quotes) key = held quotes key := by
  unfold held
  rw [Table.sum_upsert, Table.lookup_eq_none.mpr hnew, hnone, heldBy_nil]
  simp

/-- Deleting a quote without allocations releases nothing. -/
theorem held_erase {quotes : List QuoteAggregate} (hd : Table.Distinct QuoteAggregate.id quotes)
    {q : QuoteAggregate} (hq : q ∈ quotes) (hnone : q.allocations = []) (key : StockKey) :
    held (Table.erase QuoteAggregate.id q.id quotes) key = held quotes key := by
  unfold held
  rw [Table.sum_erase _ _ hd, Table.lookup_of_mem hd hq, Option.map_some, Option.getD_some, hnone,
    heldBy_nil, sub_zero]

/-! ## Requests that plan nothing -/

section Unplanned

variable {env : Env} {w w' : World} {a b : QuoteAggregate} {op : QuoteEdit}

/-- Whether an edit plans. -/
def QuoteEdit.plans : QuoteEdit → Bool
  | .planFulfillment .. => true
  | _ => false

theorem Change.allocations_of_unplanned (h : Change env w w' a b op) (hop : op.plans = false) :
    b.allocations = a.allocations := by
  cases h with
  | planned => cases hop
  | _ =>
      have hbody := ‹b.body = _›
      have hallocations := eq_of_body (fun c => c.allocations) hbody (fun _ => rfl)
      exact hallocations

/-- A won quote's lines go on standing for the products they stand for. -/
theorem Change.productByLineId (h : Change env w w' a b op) (hwon : DealFlow360.isWon a.quote.status = true) :
    productByLineId b.lines = productByLineId a.lines := by
  refine productByLineId_congr ?_
  rcases h.lines with hsame | ⟨lines, hb, hlines, ⟨hopen, -⟩ | ⟨hstatus, -⟩ | ⟨_, _, _, _, rfl⟩⟩
  · rw [hsame]
  · rw [canMutateCommercials_of_isWon hwon] at hopen
    cases hopen
  · rcases hstatus with hstatus | hstatus <;> rw [hstatus] at hwon <;> cases hwon
  · cases hlines with
    | respondToNegotiation hrequest hlines =>
        rw [hb]
        exact acceptAll_view (fun line quantity discountPercent => rfl) hlines

theorem Change.heldBy_of_unplanned (h : Change env w w' a b op) (hop : op.plans = false)
    (ha : AllocatedWhileWon a) : heldBy b.lines b.allocations = heldBy a.lines a.allocations := by
  rw [h.allocations_of_unplanned hop]
  by_cases hnone : a.allocations = []
  · rw [hnone]
    rfl
  · unfold heldBy
    rw [h.productByLineId (ha hnone)]

end Unplanned

section Serve

variable {options : Options} {w : World} {request : Request}

/-- Whether a request plans. -/
def Operation.plans : Operation → Bool
  | .edit op => op.plans
  | _ => false

/-- A request that plans nothing leaves what is held, row by row. -/
theorem held_serve (h : StockLedger w) (hop : request.operation.plans = false) :
    held (serve options w request).store.quotes = held w.store.quotes := by
  funext key
  have hloaded {q a : QuoteAggregate} (hq : Loaded w.store q a) :
      heldBy a.lines a.allocations key = heldBy q.lines q.allocations key := by
    rw [hq.lines, hq.allocations]
  cases effect_of_serve options w request with
  | kept hquotes hnext => rw [hquotes]
  | @edited op q a b w₁ pairs hedit hload hq hedited hpairs htail hquotes =>
      rw [hedit] at hop
      have hchange := change_of_edit op hedited
      have hid : (savedRecord (request.env options) w₁.store b pairs).id = q.id :=
        hchange.id.trans (congrArg Quote.id hq.quote)
      have ha : AllocatedWhileWon a := (h.allocated q hq.mem).of_core hq.core.symm
      have hsame := congrFun (hchange.heldBy_of_unplanned hop ha) key
      rw [hquotes, held_upsert h.indexed.distinct hq.mem hid]
      show _ + heldBy b.lines b.allocations key - _ = _
      rw [hsame, hloaded hq, add_sub_cancel_right]
  | @created customerId ownerId inputs actor b w₁ pairs hcreate hdraft hpairs htail hquotes =>
      have hdrafted := draftQuote_eq_ok hdraft
      have hid : (savedRecord (request.env options) w₁.store b pairs).id = w.nextUuid := hdrafted.id
      have hnone : (savedRecord (request.env options) w₁.store b pairs).allocations = [] :=
        hdrafted.allocations
      rw [hquotes]
      refine held_upsert_new (fun q hq heq => ?_) hnone key
      exact Nat.ne_of_lt (h.indexed.fresh q hq) (heq.trans hid)
  | @assessed quoteId q a pairs hassess hq hquoteId hpairs htail hquotes =>
      have hid : (applyAssessment options w.store a (assessQuote
          (assessmentInput options w.store a.customer.tier pairs))).id = q.id := by
        have hid := congrArg Quote.id hq.quote
        exact hid
      rw [hquotes, held_upsert h.indexed.distinct hq.mem hid]
      show _ + heldBy a.lines a.allocations key - _ = _
      rw [hloaded hq, add_sub_cancel_right]
  | @deleted quoteId actor version q a hdelete hq hid hunlocked hstatus hworld =>
      have hnone : q.allocations = [] := by
        by_contra hne
        have hwon := h.allocated q hq.mem hne
        rw [← hq.quote] at hwon
        revert hwon hstatus
        cases a.quote.status <;> decide
      rw [hworld, ← hid]
      exact held_erase h.indexed.distinct hq.mem hnone key

/-- The stock table stays as it is. -/
def StockKept (w w' : World) : Prop := w'.store.stock = w.store.stock

theorem stockKept_footprint : Footprint StockKept where
  refl _ := rfl
  trans _ _ _ h₁ h₂ := h₂.trans h₁
  quiet h := by
    unfold StockKept
    rw [h.store]
  tail h := by
    unfold StockKept
    rw [h.store]
  save _ _ := rfl
  delete _ _ := rfl

/-- Of the operations on quotes, only planning writes stock. -/
theorem stock_serve (h : StockLedger w) (hop : request.operation.plans = false)
    (hcatalog : ∀ op, request.operation ≠ .catalog op) :
    (serve options w request).store.stock = w.store.stock := by
  cases hoperation : request.operation with
  | catalog op => exact absurd hoperation (hcatalog op)
  | edit op =>
      rw [hoperation] at hop
      refine stockKept_footprint.serve_edit hoperation fun q a _ hq => ?_
      have ha : AllocatedWhileWon a := (h.allocated q hq.mem).of_core hq.core.symm
      have hunplanned (quoteId : Id) (overrides : List FulfillmentOverride) (version : ℕ) :
          op ≠ .planFulfillment quoteId overrides version := by
        rintro rfl
        cases hop
      exact (keeps_quiet_unplanned _ ha hunplanned).mono fun _ _ => stockKept_footprint.quiet
  | _ => exact stockKept_footprint.serve options w (by rw [hoperation]; rfl)

end Serve

/-! ## Catalog edits -/

namespace Balanced

variable {hold : StockKey → Num} {stock : List StockLevel}

theorem filter (h : Balanced hold stock) (p : StockLevel → Bool) : Balanced hold (stock.filter p) where
  distinct := Table.distinct_filter h.distinct p
  reserved row hrow := h.reserved row (List.mem_of_mem_filter hrow)
  onHand row hrow := h.onHand row (List.mem_of_mem_filter hrow)

/-- Writing a row with the reservation that is held there keeps the books. -/
theorem upsert (h : Balanced hold stock) {row : StockLevel} (hreserved : row.reserved = hold row.key)
    (honHand : row.reserved ≤ row.quantityOnHand) :
    Balanced hold (Table.upsert StockLevel.key row stock) where
  distinct := Table.distinct_upsert h.distinct row
  reserved other hother := by
    rcases Table.mem_upsert hother with rfl | hother
    · exact hreserved
    · exact h.reserved other hother
  onHand other hother := by
    rcases Table.mem_upsert hother with rfl | hother
    · exact honHand
    · exact h.onHand other hother

end Balanced

/-- A stock table that balanced goes on balancing. -/
def BalanceKept (hold : StockKey → Num) (w w' : World) : Prop :=
  Balanced hold w.store.stock → Balanced hold w'.store.stock

instance (hold : StockKey → Num) : Std.Refl (BalanceKept hold) := ⟨fun _ h => h⟩

instance (hold : StockKey → Num) : IsTrans World (BalanceKept hold) :=
  ⟨fun _ _ _ h₁ h₂ h => h₂ (h₁ h)⟩

theorem BalanceKept.of_stock {hold : StockKey → Num} {w w' : World}
    (h : w'.store.stock = w.store.stock) : BalanceKept hold w w' := by
  intro hbalanced
  rwa [h]

section Catalog

variable {hold : StockKey → Num} {env : Env}

/-- The row is written with the reservation that is held there. -/
def WritesHeld (hold : StockKey → Num) (row : StockLevel) : Prop :=
  row.reserved = hold row.key ∧ row.reserved ≤ row.quantityOnHand

instance (hold : StockKey → Num) (row : StockLevel) : Decidable (WritesHeld hold row) :=
  inferInstanceAs (Decidable (_ ∧ _))

/-- The catalog edits that write no reservation, deletions of rows included. -/
def CatalogEdit.writesReservations : CatalogEdit → Bool
  | .upsertStock .. | .upsertProduct .. => true
  | _ => false

theorem balanceKept_catalog {op : CatalogEdit} (hop : op.writesReservations = false) :
    Keeps (BalanceKept hold) (op.program env) := by
  refine keeps_catalog_of (fun _ _ _ => .of_stock rfl) env fun f hf w => ?_
  cases hf with
  | upsertStock => cases hop
  | productStock => cases hop
  | upsertProduct => cases hop
  | productBreaks => cases hop
  | deleteProduct =>
      unfold Store.deleteProduct
      split
      · exact .of_stock rfl
      · exact fun h => h.filter _
  | deleteWarehouse =>
      unfold Store.deleteWarehouse
      split
      · exact fun h => h.filter _
      · exact .of_stock rfl
  | deleteStock => exact fun h => h.filter _
  | _ => exact .of_stock rfl

/-- A stock row is written by an actor who may, with quantities that are not negative. -/
theorem balanceKept_upsertStock {row : StockLevel} {actor : Actor}
    (hrow : canWriteProducts actor = true → 0 ≤ row.quantityOnHand → WritesHeld hold row) :
    Keeps (BalanceKept hold) (upsertStock row actor) where
  keeps w := by
    simp only [upsertStock, after_throwIf_bind, after_read_bind]
    split
    · exact Std.Refl.refl w
    · rename_i hallowed
      split
      · exact Std.Refl.refl w
      · rename_i hquantities
        split
        · exact Std.Refl.refl w
        · split
          · exact Std.Refl.refl w
          · obtain ⟨hreserved, honHand⟩ := hrow (not_not.mp hallowed)
              (not_lt.mp fun hneg => hquantities (.inl hneg))
            exact fun h => h.upsert hreserved honHand

/-- The rows that come with a product are written unreserved. -/
theorem balanceKept_upsertProduct {input : ProductInput} {actor : Actor} {w : World}
    (hrows : canWriteProducts actor = true → ∀ item ∈ input.stock.getD [],
      hold (item.warehouseId, input.id.getD w.nextUuid) = 0) :
    BalanceKept hold w (after (upsertProduct env input actor) w) := by
  simp only [upsertProduct, after_throwIf_bind, after_read_bind]
  split
  · exact Std.Refl.refl w
  · rename_i hallowed
    have hallowed := not_not.mp hallowed
    rcases after_lift_bind (currentProduct w.store input.id) _ w with hend | ⟨current, hcurrent, hend⟩
    · rw [hend]
      exact Std.Refl.refl w
    · have huuid : randomUUID w = .ok w.nextUuid { w with nextUuid := w.nextUuid + 1 } := rfl
      rw [hend, after_bind_of_ok huuid]
      have hid : (input.build current (input.id.getD ((current.map (·.id)).getD w.nextUuid))).id
          = input.id.getD w.nextUuid := by
        show input.id.getD _ = _
        cases hinput : input.id with
        | some id => rfl
        | none =>
            rw [hinput] at hcurrent
            obtain rfl := Except.ok.inj hcurrent
            rfl
      have hproduct (product : Product) :
          Keeps (BalanceKept hold) (updateStore (Store.upsertProduct product)) :=
        .write fun _ => .of_stock rfl
      have hbreaks (next : List QuantityBreak) : Keeps (BalanceKept hold)
          (updateStore fun store => { store with quantityBreaks := next }) :=
        .write fun _ => .of_stock rfl
      have hids : Keeps (BalanceKept hold) randomUUID ∧
          ∀ count, Keeps (BalanceKept hold) (randomUUIDs count) := keeps_ids fun _ _ _ => .of_stock rfl
      obtain ⟨-, hidList⟩ := hids
      have hsent := keeps_replaceSentBreaks hbreaks
      have hstock : Keeps (BalanceKept hold) ((input.stock.getD []).foldlM
          (fun (_ : PUnit) row => upsertStock (row.row (input.build current
            (input.id.getD ((current.map (·.id)).getD w.nextUuid))).id) actor) PUnit.unit) := by
        refine .foldlM_of (fun item hitem _ => balanceKept_upsertStock fun _ hquantity => ?_) _
        refine ⟨?_, hquantity⟩
        rw [hid]
        exact (hrows hallowed item hitem).symm
      show BalanceKept hold { w with nextUuid := w.nextUuid + 1 } _
      exact Keeps.keeps _

end Catalog

/-! ## Planning -/

section Planning

variable {env : Env} {w w' : World} {a b : QuoteAggregate} {e : DomainError}

/-- A refused plan has written nothing but the ids it drew. -/
theorem store_of_planQuote_error {quoteId : Id} {overrides : List FulfillmentOverride} {version : ℕ}
    (h : (planQuote env quoteId overrides version).edit a w = .error e w') :
    w'.store = w.store := by
  have hversion {e : DomainError} {w' : World}
      (h : assertExpectedVersion a version w = .error e w') : w = w' := Keeps.of_error h
  simp only [planQuote, Mutation.saving, map_eq_error, bind_eq_error, assertExpectedVersion_eq_ok,
    throwIf_eq_ok, read_eq_ok, read_eq_error, randomUUIDs_eq_ok, lift_eq_ok, lift_eq_error,
    updateStore_eq_ok, pure_eq_error, and_false, exists_false, or_false, false_or] at h
  rcases h with hfail | ⟨_, _, ⟨-, rfl⟩, hfail | ⟨_, _, ⟨-, rfl⟩, _, _, ⟨rfl, rfl⟩,
    hfail | ⟨_, _, ⟨rfl, rfl⟩, ⟨-, rfl⟩ | ⟨planned, _, ⟨-, rfl⟩, hfail⟩⟩⟩⟩
  · rw [hversion hfail]
  · rw [show w = w' from Keeps.of_error hfail]
  · cases hfail
  · rfl
  · cases hfail

theorem Change.plan {quoteId : Id} {overrides : List FulfillmentOverride} {version : ℕ}
    (h : Change env w w' a b (.planFulfillment quoteId overrides version)) :
    b.lines = a.lines ∧ ∃ planned,
      planAndReserve (planInput env w.store (fun index => w.nextUuid + index) a overrides)
          a.allocations = .ok planned ∧
        w'.store.stock = planned.2 ∧ b.allocations = planned.1.allocations := by
  cases h with
  | planned hstatus hplanned hstock hconsumed hbody =>
      have hlines := eq_of_body (fun c => c.lines) hbody (fun _ => rfl)
      have hallocations := eq_of_body (fun c => c.allocations) hbody (fun _ => rfl)
      exact ⟨hlines, _, hplanned, hstock, hallocations⟩
  | commercial hop => cases hop
  | proposed active hop => cases hop
  | moved active frozenAt frozenBy hop => cases hop
  | answered decision decidedAt comment decidedVersion active hop => cases hop

/-- A quote, overrides and a stock table counted in units of `2 ^ k`. -/
structure Countable (k : ℤ) (stock : List StockLevel) (q : QuoteAggregate) (overrides : List FulfillmentOverride) :
    Prop where
  lines : ∀ line ∈ q.lines, Exact k line.quantity
  overrides : ∀ override ∈ overrides, override.quantity ∈ grid k
  allocations : ∀ split ∈ q.allocations, Exact k split.quantity
  stock : StockCounted k stock

instance (k : ℤ) (stock : List StockLevel) (q : QuoteAggregate) (overrides : List FulfillmentOverride) :
    Decidable (Countable k stock q overrides) :=
  decidable_of_iff ((∀ line ∈ q.lines, Exact k line.quantity) ∧ (∀ override ∈ overrides, override.quantity ∈ grid k) ∧
      (∀ split ∈ q.allocations, Exact k split.quantity) ∧ StockCounted k stock)
    ⟨fun h => ⟨h.1, h.2.1, h.2.2.1, h.2.2.2⟩, fun h => ⟨h.1, h.2, h.3, h.4⟩⟩

/-- A call on a quote that is counted plans with counted quantities. -/
theorem Countable.counted {k : ℤ} {input : PlanInput} {q : QuoteAggregate}
    (h : Countable k input.stock q input.overrides) (hlines : input.lines = q.lines) : input.Counted k where
  lines := by
    rw [hlines]
    exact h.lines
  overrides := h.overrides
  stock := h.stock

/-- A plan of counted quantities and its reservation are the exact ones. -/
theorem exact_of_planAndReserve {k : ℤ} {input : PlanInput} {previous : List FulfillmentSplit}
    {planned : FulfillmentPlan × List StockLevel} (hinput : input.Counted k) (hlines : OneProduct input.lines)
    (hreserved : ∀ key row, findRow input.stock key = some row → 0 ≤ row.reserved)
    (hprevious : ∀ split ∈ previous, 0 ≤ split.quantity ∧ Exact k split.quantity)
    (h : planAndReserve input previous = .ok planned) :
    planFulfillment double input = .ok planned.1 ∧
      ∃ exact, planFulfillment id input = .ok exact ∧ exact.allocations = planned.1.allocations ∧
        reserveStock id (productByLineId input.lines) input.stock previous exact.allocations = .ok planned.2 := by
  obtain ⟨plan, hplan, h⟩ := except_bind_eq_ok.mp h
  obtain ⟨stock, hreserve, h⟩ := except_bind_eq_ok.mp h
  obtain rfl := Except.ok.inj h
  obtain ⟨exact, hexact, hallocations⟩ := exact_of_plan hinput hlines hplan
  rw [reserveStock_double hinput hlines hreserved hprevious hplan, ← hallocations] at hreserve
  exact ⟨hplan, exact, hexact, hallocations, hreserve⟩

/-- What a plan against balanced books makes of the stock: the books balance with what the plan holds
in place of what the plan before held. -/
theorem Balanced.plan {hold : StockKey → Num} {k : ℤ} {input : PlanInput} {previous : List FulfillmentSplit}
    {planned : FulfillmentPlan × List StockLevel} (h : Balanced hold input.stock)
    (hdistinct : (input.lines.map (·.id)).Nodup) (hinput : input.Counted k)
    (hprevious : ∀ split ∈ previous, 0 ≤ split.quantity ∧ Exact k split.quantity)
    (hheld : ∀ key, heldBy input.lines previous key ≤ hold key)
    (hplanned : planAndReserve input previous = .ok planned) :
    (∀ split ∈ planned.1.allocations, 0 ≤ split.quantity) ∧
      Balanced (fun key => hold key + heldBy input.lines planned.1.allocations key
        - heldBy input.lines previous key) planned.2 := by
  have hnonneg' : ∀ split ∈ previous, 0 ≤ split.quantity := fun split hsplit => (hprevious split hsplit).1
  have hreserved : ∀ key row, findRow input.stock key = some row → heldBy input.lines previous key ≤ row.reserved := by
    intro key row hrow
    have hkey : row.key = key := Table.key_of_lookup hrow
    rw [h.reserved row (Table.mem_of_lookup hrow), hkey]
    exact hheld key
  obtain ⟨-, plan, hplan, hallocations, hreserve⟩ := exact_of_planAndReserve hinput (oneProduct_of_distinct hdistinct)
    (fun key row hrow => (sumAt_nonneg hnonneg' key).trans (hreserved key row hrow)) hprevious hplanned
  rw [← hallocations]
  have hfits : Fits input.stock := fun key row hrow => h.onHand row (Table.mem_of_lookup hrow)
  obtain ⟨hpositive, hroom⟩ := planFulfillment_eq_ok hfits (oneProduct_of_distinct hdistinct) hplan
  have hnonneg : ∀ split ∈ plan.allocations, 0 ≤ split.quantity :=
    fun split hsplit => le_of_lt (hpositive split hsplit)
  have hmoved := reserveStock_moved hnonneg' hnonneg hreserved hreserve
  refine ⟨hnonneg, hmoved.distinct h.distinct, fun row hrow => ?_, fun row hrow => ?_⟩
  · obtain ⟨before, hbefore, rfl⟩ := hmoved.exists_of_mem h.distinct hrow
    have hreserved := h.reserved before hbefore
    show before.reserved + (heldBy input.lines plan.allocations before.key
      - heldBy input.lines previous before.key) = _
    rw [hreserved]
    exact (add_sub_assoc ..).symm
  · obtain ⟨before, hbefore, rfl⟩ := hmoved.exists_of_mem h.distinct hrow
    have hlookup := hroom before.key before (Table.lookup_of_mem h.distinct hbefore)
    have hreleased : 0 ≤ heldBy input.lines previous before.key := sumAt_nonneg hnonneg' before.key
    show before.reserved + (heldBy input.lines plan.allocations before.key
      - heldBy input.lines previous before.key) ≤ before.quantityOnHand
    linarith

end Planning

/-! ## The ledger over runs -/

/-- A catalog edit writes a stock row only with the reservation that is held there, and a call plans with quantities
counted in one unit. -/
def LedgerSafe (w : World) : Operation → Prop
  | .catalog (.upsertStock row actor) =>
      canWriteProducts actor = true → WritesHeld (held w.store.quotes) row
  | .catalog (.upsertProduct input actor) =>
      canWriteProducts actor = true → ∀ item ∈ input.stock.getD [],
        held w.store.quotes (item.warehouseId, input.id.getD w.nextUuid) = 0
  | .edit (.planFulfillment quoteId overrides _) =>
      ∃ k, ∀ q ∈ w.store.quotes, q.id = quoteId → Countable k w.store.stock q overrides
  | _ => True

section Step

variable {options : Options} {w : World} {request : Request}

theorem Created.allocations {q : QuoteAggregate} (h : Created options w request q) :
    q.allocations = [] := by
  obtain ⟨-, -, hdraft, -, -⟩ := h
  exact hdraft.allocations

theorem balanceKept_serve {hold : StockKey → Num} {op : CatalogEdit}
    (hop : request.operation = .catalog op) (hhold : hold = held w.store.quotes)
    (hsafe : LedgerSafe w request.operation) :
    BalanceKept hold w (serve options w request) := by
  have hserve : serve options w request = after (op.program (request.env options)) w := by
    unfold serve Request.program
    rw [hop]
    rfl
  rw [hop] at hsafe
  rw [hserve]
  subst hhold
  cases op with
  | upsertStock row actor =>
      exact (balanceKept_upsertStock fun hallowed _ => hsafe hallowed).keeps w
  | upsertProduct input actor =>
      have hanswer : after (CatalogEdit.program (request.env options) (.upsertProduct input actor)) w
          = after (upsertProduct (request.env options) input actor) w := after_map _ _ w
      rw [hanswer]
      exact balanceKept_upsertProduct hsafe
  | _ => exact (balanceKept_catalog rfl).keeps w

/-- The books of a request that plans nothing. -/
theorem StockLedger.balanced_unplanned (h : StockLedger w) (hop : request.operation.plans = false)
    (hsafe : LedgerSafe w request.operation) :
    Balanced (held (serve options w request).store.quotes) (serve options w request).store.stock := by
  rw [held_serve h hop]
  by_cases hcatalog : ∃ op, request.operation = .catalog op
  · obtain ⟨op, hcatalog⟩ := hcatalog
    exact balanceKept_serve hcatalog rfl hsafe h.balanced
  · rw [stock_serve h hop fun op heq => hcatalog ⟨op, heq⟩]
    exact h.balanced

theorem StockLedger.quantities_unplanned (h : StockLedger w) (hop : request.operation.plans = false) :
    ∀ q ∈ (serve options w request).store.quotes, ∀ split ∈ q.allocations, 0 ≤ split.quantity := by
  intro q' hq'
  rcases quote_of_serve hq' with ⟨q, hq, hstep⟩ | hcreated
  · cases hstep with
    | untouched => exact h.quantities q' hq
    | @edited op a b w₁ pairs hedit hload hloaded hedited hframe hchange hpairs hnext =>
        rw [hedit] at hop
        have hsame := hchange.allocations_of_unplanned hop
        rw [hloaded.allocations] at hsame
        show ∀ split ∈ b.allocations, _
        rw [hsame]
        exact h.quantities q hq
    | @assessed quoteId a pairs hassess hloaded hid hpairs =>
        show ∀ split ∈ a.allocations, _
        rw [hloaded.allocations]
        exact h.quantities q hq
  · rw [hcreated.allocations]
    exact fun split hsplit => absurd hsplit List.not_mem_nil

/-- The books and the quantities of a request that plans. -/
theorem StockLedger.planned (h : StockLedger w) {quoteId : Id} {overrides : List FulfillmentOverride}
    {version : ℕ} (hop : request.operation = .edit (.planFulfillment quoteId overrides version))
    (hsafe : LedgerSafe w request.operation) :
    (∀ q ∈ (serve options w request).store.quotes, ∀ split ∈ q.allocations, 0 ≤ split.quantity) ∧
      Balanced (held (serve options w request).store.quotes)
        (serve options w request).store.stock := by
  have hsame {w' : World} (hquotes : w'.store.quotes = w.store.quotes)
      (hstock : w'.store.stock = w.store.stock) :
      (∀ q ∈ w'.store.quotes, ∀ split ∈ q.allocations, 0 ≤ split.quantity) ∧
        Balanced (held w'.store.quotes) w'.store.stock := by
    rw [hquotes, hstock]
    exact ⟨h.quantities, h.balanced⟩
  rw [hop] at hsafe
  obtain ⟨k, hsafe⟩ := hsafe
  rcases outcome_of_serve hop with hworld | ⟨_, a, hload, -, houtcome⟩
  · exact hsame (by rw [hworld]) (by rw [hworld])
  · obtain ⟨q, hq, hid⟩ := loaded_of_load hload
    have hcountable := hsafe q hq.mem hid
    have hheld (key : StockKey) : heldBy a.lines a.allocations key ≤ held w.store.quotes key := by
      rw [hq.lines, hq.allocations]
      exact heldBy_le_held h.quantities hq.mem key
    have hdistinct : (a.lines.map (·.id)).Nodup := by
      rw [hq.lines]
      exact (h.lines q hq.mem).distinct
    have hprevious : ∀ split ∈ a.allocations, 0 ≤ split.quantity ∧ Exact k split.quantity := by
      rw [hq.allocations]
      exact fun split hsplit => ⟨h.quantities q hq.mem split hsplit, hcountable.allocations split hsplit⟩
    cases houtcome with
    | failed hedit =>
        have hstore := store_of_planQuote_error hedit
        exact hsame (by rw [hstore]) (by rw [hstore])
    | idle hedit htail =>
        obtain ⟨_, -, hnone⟩ := map_eq_ok.mp hedit
        cases hnone
    | @unpriced b e hedit hpairs =>
        have hframe : EditFrame w (serve options w request) := (keeps_edit _ _ a).of_ok hedit
        obtain ⟨hlines, -⟩ := (change_of_edit _ hedit).plan
        obtain ⟨pairs, hknown⟩ : ∃ pairs,
            pairProducts (serve options w request).store b.lines = .ok pairs := by
          refine pairs_of_known fun line hline => ?_
          rw [hlines, hq.lines] at hline
          rw [hframe.store]
          exact h.products q hq.mem line hline
        rw [hknown] at hpairs
        cases hpairs
    | @saved b w₁ pairs hedit hpairs htail =>
        have hchange := change_of_edit _ hedit
        have hquotes := quotes_of_saved ((keeps_edit _ _ a).of_ok hedit) htail
        obtain ⟨hlines, planned, hplanned, hstock, hallocations⟩ := hchange.plan
        have hid : (savedRecord (request.env options) w₁.store b pairs).id = q.id :=
          hchange.id.trans (by have hid := congrArg Quote.id hq.quote; exact hid)
        have hbefore : Balanced (held w.store.quotes) (planInput (request.env options) w.store
            (fun index => w.nextUuid + index) a overrides).stock := h.balanced
        obtain ⟨hnonneg, hbalanced⟩ := hbefore.plan hdistinct
          (Countable.counted hcountable hq.lines) hprevious hheld hplanned
        have hstock' : (serve options w request).store.stock = planned.2 := by
          rw [htail.store]
          exact hstock
        rw [hquotes, hstock']
        refine ⟨fun q' hq' => ?_, ?_⟩
        · rcases Table.mem_upsert hq' with rfl | hq'
          · show ∀ split ∈ b.allocations, _
            rw [hallocations]
            exact hnonneg
          · exact h.quantities q' hq'
        · have hnow : held (Table.upsert QuoteAggregate.id
              (savedRecord (request.env options) w₁.store b pairs) w.store.quotes)
                = fun key => held w.store.quotes key + heldBy a.lines planned.1.allocations key
                  - heldBy a.lines a.allocations key := by
            funext key
            rw [held_upsert h.indexed.distinct hq.mem hid, hq.lines, hq.allocations, ← hallocations,
              ← hq.lines, ← hlines]
            rfl
          rw [hnow]
          exact hbalanced

theorem StockLedger.serve (h : StockLedger w) (hsafe : LedgerSafe w request.operation) :
    StockLedger (serve options w request) := by
  have hbooks : (∀ q ∈ (DealFlow360.serve options w request).store.quotes,
      ∀ split ∈ q.allocations, 0 ≤ split.quantity) ∧
        Balanced (held (DealFlow360.serve options w request).store.quotes)
          (DealFlow360.serve options w request).store.stock := by
    cases hop : request.operation.plans with
    | false => exact ⟨h.quantities_unplanned hop, h.balanced_unplanned hop hsafe⟩
    | true =>
        cases hoperation : request.operation with
        | edit op =>
            rw [hoperation] at hop
            cases op with
            | planFulfillment quoteId overrides version => exact h.planned hoperation hsafe
            | _ => cases hop
        | _ =>
            rw [hoperation] at hop
            cases hop
  exact
    { indexed := h.indexed.serve options request
      lines := linesIdentified_invariant.serve h.lines
      allocated := allocatedWhileWon_invariant.serve h.allocated
      products := h.products.serve options request
      quantities := hbooks.1
      balanced := hbooks.2 }

end Step

/-- In every run from a store without quotes whose stock is unreserved, if every stock row the catalog
writes is written with the reservation held there and every call plans with quantities counted in one
unit, each row stays reserved for exactly what the
allocations of all quotes hold on it, and for no more than is on hand. -/
theorem stock_ledger (options : Options) (w₀ : World) (hfresh : w₀.Fresh)
    (hrows : Table.Distinct StockLevel.key w₀.store.stock)
    (hunreserved : ∀ row ∈ w₀.store.stock, row.reserved = 0 ∧ 0 ≤ row.quantityOnHand)
    (requests : List Request)
    (hsafe : Machine.Meets (serve options) (fun w request => LedgerSafe w request.operation) w₀
      requests) :
    let w := serveAll options w₀ requests
    ∀ row ∈ w.store.stock, row.reserved = held w.store.quotes row.key ∧
      0 ≤ row.reserved ∧ row.reserved ≤ row.quantityOnHand := by
  intro w row hrow
  have hnone {P : QuoteAggregate → Prop} : ∀ q ∈ w₀.store.quotes, P q := by
    rw [hfresh.quotes]
    exact fun q hq => absurd hq List.not_mem_nil
  have hstart : StockLedger w₀ :=
    { indexed := hfresh.indexed
      lines := hnone
      allocated := hnone
      products := hnone
      quantities := hnone
      balanced :=
        { distinct := hrows
          reserved := fun row hrow => by
            rw [(hunreserved row hrow).1, hfresh.quotes]
            rfl
          onHand := fun row hrow => by
            rw [(hunreserved row hrow).1]
            exact (hunreserved row hrow).2 } }
  have hend : StockLedger w :=
    Machine.invariant_of_meets (fun _ _ h hsafe => h.serve hsafe) hstart hsafe
  have hreserved := hend.balanced.reserved row hrow
  refine ⟨hreserved, ?_, hend.balanced.onHand row hrow⟩
  rw [hreserved]
  exact held_nonneg hend.quantities row.key

/-- Two gateways sold and planned. -/
def plannedDeal : List Request :=
  lockedDeal [{ productId := 11, quantity := 2, discountPercent := 0 }] ++
    [{ operation := .edit (.planFulfillment 100 [] 5) }]

/-- The warehouse counts its gateways anew and states the two reserved ones. -/
theorem stock_ledger_recounted :
    let w := serveAll plainOptions startWorld (plannedDeal ++
      [{ operation := .catalog (.upsertStock
          { warehouseId := 21, productId := 11, quantityOnHand := 3, reserved := 2 }
          administrator) }])
    ∀ row ∈ w.store.stock, row.reserved = held w.store.quotes row.key ∧
      0 ≤ row.reserved ∧ row.reserved ≤ row.quantityOnHand := by
  refine stock_ledger plainOptions startWorld startWorld_fresh ?_ (by decide) _ ?_
  · unfold Table.Distinct
    decide
  · refine Machine.meets_concat.mpr ⟨Machine.meets_concat.mpr ⟨?_, 0, ?_⟩, fun _ => by decide +kernel⟩
    · exact ⟨trivial, trivial, trivial, trivial, trivial, trivial⟩
    · decide +kernel

/-- A product update that restates its stock forgets the two gateways reserved. -/
theorem stock_forgotten :
    let w := serveAll plainOptions startWorld (plannedDeal ++
      [{ operation := .catalog (.upsertProduct
          { id := some 11, stock := some [{ warehouseId := 21, quantityOnHand := 4 }] }
          administrator) }])
    ∃ row ∈ w.store.stock, row.reserved = 0 ∧ held w.store.quotes row.key = 2 := by
  decide +kernel

end DealFlow360
