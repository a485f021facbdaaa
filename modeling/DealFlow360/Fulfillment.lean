import DealFlow360.Errors
import DealFlow360.Lib.Doubles
import DealFlow360.Lib.Table

/-!
# Fulfillment

`planFulfillment` splits the lines of a quote over the warehouses, cheapest
availability first; `reserveStock` moves the reservations of the previous plan
to the next one; `consumeStockOnConfirm` takes allocated stock off the shelf.

Quantities are numbers of the platform, and every sum and difference of two of
them is rounded: three tenths and seven tenths taken from nine tenths on hand
come to more than there were. So what is written to a row, to what remains of a
line and to a backlog goes through `fl`. The service computes with
`Doubles.double`; with `id` the same definitions compute exactly, which is what
plans and reservations are reasoned about with, and what doubles do wherever
quantities are counted in one unit. A difference of which only the sign is used
is left as it is, rounding keeps its sign.
-/

namespace DealFlow360

/-- The warehouse and the product a stock row is about. -/
abbrev StockKey := Id × Id

def StockLevel.key (row : StockLevel) : StockKey := (row.warehouseId, row.productId)

/-- The first row of a warehouse and a product. -/
abbrev findRow (stock : List StockLevel) (key : StockKey) : Option StockLevel :=
  Table.lookup StockLevel.key key stock

/-- Mutate the row `findRow` finds. -/
def updateRow (key : StockKey) (f : StockLevel → StockLevel) (stock : List StockLevel) :
    List StockLevel :=
  Table.modifyFirst (fun row => decide (row.key = key)) f stock

def available (fl : Rounding) (row : Option StockLevel) : Num :=
  match row with
  | none => 0
  | some row => max 0 (fl (row.quantityOnHand - row.reserved))

/-! ## Planning -/

structure FulfillmentOverride where
  quoteLineId : Id
  warehouseId : Id
  quantity : Num
  deriving DecidableEq, Repr

structure FulfillmentPlan where
  allocations : List FulfillmentSplit
  backorders : List Backorder
  shipmentCount : ℕ
  fulfillmentCost : Num
  backorderQuantity : Num
  deriving DecidableEq, Repr

/-- What the planner is asked: `uuid` supplies the ids, `localeCompare` is the platform's collation. -/
structure PlanInput where
  uuid : ℕ → Id
  localeCompare : String → String → Num
  quoteId : Id
  lines : List QuoteLine
  warehouses : List Warehouse
  stock : List StockLevel
  overrides : List FulfillmentOverride := []

/-- The planner's accumulators. -/
structure Planning where
  stockLeft : List StockLevel
  allocations : List FulfillmentSplit := []
  remainingByProduct : List (Id × Num) := []
  remainingByLine : List (Id × Num) := []

namespace Planning

def remainingOf (planning : Planning) (line : QuoteLine) : Num :=
  ((Table.lookup Prod.fst line.id planning.remainingByLine).map (·.2)).getD line.quantity

def setRemaining (planning : Planning) (line : QuoteLine) (remaining : Num) : Planning :=
  { planning with
    remainingByLine := Table.upsert Prod.fst (line.id, remaining) planning.remainingByLine }

/-- Add what a line leaves open to its product's backorder. -/
def addBackorder (fl : Rounding) (planning : Planning) (line : QuoteLine) (remaining : Num) : Planning :=
  let before := ((Table.lookup Prod.fst line.productId planning.remainingByProduct).map (·.2)).getD 0
  { planning with
    remainingByProduct :=
      Table.upsert Prod.fst (line.productId, fl (before + remaining)) planning.remainingByProduct }

/-- Take `quantity` from a row and record the split. -/
def allocate (fl : Rounding) (input : PlanInput) (planning : Planning) (line : QuoteLine)
    (warehouse : Warehouse) (quantity : Num) (isManualOverride : Bool) : Planning :=
  { planning with
    stockLeft := updateRow (warehouse.id, line.productId)
      (fun row => { row with reserved := fl (row.reserved + quantity) }) planning.stockLeft
    allocations := planning.allocations ++
      [{ id := input.uuid planning.allocations.length
         quoteId := input.quoteId
         quoteLineId := line.id
         warehouseId := warehouse.id
         quantity
         unitFulfillmentCost := warehouse.fulfillmentCostPerUnit
         isBackorder := false
         isManualOverride }] }

/-- One manual override. -/
def applyOverride (fl : Rounding) (input : PlanInput) (planning : Planning)
    (override : FulfillmentOverride) : Except DomainError Planning :=
  match input.lines.find? fun item => item.id = override.quoteLineId with
  | none =>
      .error (invalid "Override references an unknown quote line"
        [("quoteLineId", .id override.quoteLineId)])
  | some line =>
      if override.quantity ≤ 0 then .error (invalid "Override quantity must be positive")
      else
        match input.warehouses.find? fun item => item.id = override.warehouseId with
        | none =>
            .error (invalid "Override references an unknown warehouse"
              [("warehouseId", .id override.warehouseId)])
        | some warehouse =>
            let already := planning.remainingOf line
            let row := findRow planning.stockLeft (warehouse.id, line.productId)
            if already < override.quantity then
              .error (invalid "Override quantity exceeds remaining line quantity"
                [("quoteLineId", .id line.id), ("remaining", .num already)])
            else if row.isNone ∨ available fl row < override.quantity then
              .error (conflict "Insufficient available stock for the requested warehouse allocation"
                [("warehouseId", .id warehouse.id), ("productId", .id line.productId),
                  ("requested", .num override.quantity), ("available", .num (available fl row))])
            else
              .ok ((planning.allocate fl input line warehouse override.quantity true).setRemaining line
                (fl (already - override.quantity)))

/-- One warehouse offered to a line; once nothing remains the loop is over. -/
def takeFrom (fl : Rounding) (input : PlanInput) (line : QuoteLine) (loop : Planning × Num)
    (warehouse : Warehouse) : Planning × Num :=
  let (planning, remaining) := loop
  if remaining ≤ 0 then loop
  else
    let row := findRow planning.stockLeft (warehouse.id, line.productId)
    let take := min remaining (available fl row)
    if take ≤ 0 then loop
    else (planning.allocate fl input line warehouse take false, fl (remaining - take))

def byAvailability (fl : Rounding) (planning : Planning) (ranked : List Warehouse) (line : QuoteLine) :
    List Warehouse :=
  sortBy (fun left right =>
    let leftAvail := available fl (findRow planning.stockLeft (left.id, line.productId))
    let rightAvail := available fl (findRow planning.stockLeft (right.id, line.productId))
    if leftAvail ≠ rightAvail then rightAvail - leftAvail
    else left.fulfillmentCostPerUnit - right.fulfillmentCostPerUnit) ranked

/-- One line, filled from the warehouses with most availability first. -/
def fillLine (fl : Rounding) (input : PlanInput) (ranked : List Warehouse) (planning : Planning)
    (line : QuoteLine) : Planning :=
  let loop := (planning.byAvailability fl ranked line).foldl (takeFrom fl input line)
    (planning, planning.remainingOf line)
  (loop.1.setRemaining line loop.2).addBackorder fl line loop.2

end Planning

def compareWarehouses (localeCompare : String → String → Num) (left right : Warehouse) : Num :=
  if left.fulfillmentCostPerUnit ≠ right.fulfillmentCostPerUnit then
    left.fulfillmentCostPerUnit - right.fulfillmentCostPerUnit
  else localeCompare left.name right.name

/-- The plan read off the accumulators once every line is filled. -/
def Planning.finish (fl : Rounding) (input : PlanInput) (planning : Planning) : FulfillmentPlan :=
  let open_ := planning.remainingByProduct.filter fun entry => 0 < entry.2
  let backorders := open_.mapIdx fun index entry =>
    { id := input.uuid (planning.allocations.length + index)
      quoteId := input.quoteId
      productId := entry.1
      quantity := entry.2 }
  let shipped := planning.allocations.filter fun item => !item.isBackorder
  { allocations := planning.allocations
    backorders
    shipmentCount := (shipped.map (·.warehouseId)).dedup.length
    fulfillmentCost :=
      shipped.foldl (fun sum item => fl (sum + fl (item.quantity * item.unitFulfillmentCost))) 0
    backorderQuantity := backorders.foldl (fun sum item => fl (sum + item.quantity)) 0 }

def planFulfillment (fl : Rounding) (input : PlanInput) : Except DomainError FulfillmentPlan := do
  let planning ← input.overrides.foldlM (Planning.applyOverride fl input) { stockLeft := input.stock }
  let ranked := sortBy (compareWarehouses input.localeCompare) input.warehouses
  let planning := input.lines.foldl (Planning.fillLine fl input ranked) planning
  return planning.finish fl input

/-! ## Reserving and consuming -/

/-- `Object.fromEntries(lines.map(line => [line.id, line.productId]))`: the last line of an id. -/
def productByLineId (lines : List QuoteLine) (lineId : Id) : Option Id :=
  (lines.reverse.find? fun line => line.id = lineId).map (·.productId)

/-- The row a split draws on, if its line has a product and the row exists. -/
def splitRow (productOf : Id → Option Id) (stock : List StockLevel) (split : FulfillmentSplit) :
    Option StockLevel :=
  (productOf split.quoteLineId).bind fun productId => findRow stock (split.warehouseId, productId)

/-- `mutate`: move a row's reservation by `delta`, never below zero. -/
def mutateReserved (fl : Rounding) (productOf : Id → Option Id) (stock : List StockLevel)
    (split : FulfillmentSplit) (delta : Num) : Except DomainError (List StockLevel) :=
  if split.isBackorder then .ok stock
  else
    match splitRow productOf stock split with
    | none =>
        .error (conflict "Stock row missing for reservation"
          [("warehouseId", .id split.warehouseId),
            ("productId", ((productOf split.quoteLineId).map .id).getD .missing)])
    | some row =>
        .ok (updateRow row.key
          (fun row => { row with reserved := max 0 (fl (row.reserved + delta)) }) stock)

/-- The tolerance of the on-hand check, `1e-9`. -/
def stockTolerance : Num := Doubles.double (1 / 10 ^ 9)

def reserveNext (fl : Rounding) (productOf : Id → Option Id) (stock : List StockLevel)
    (split : FulfillmentSplit) : Except DomainError (List StockLevel) := do
  let stock ← mutateReserved fl productOf stock split split.quantity
  match splitRow productOf stock split with
  | some row =>
      if fl (row.quantityOnHand + stockTolerance) < row.reserved then
        throw (conflict "Reservation exceeds on-hand quantity"
          [("warehouseId", .id split.warehouseId), ("productId", .id row.productId),
            ("reserved", .num row.reserved), ("onHand", .num row.quantityOnHand)])
      else return stock
  | none => return stock

def reserveStock (fl : Rounding) (productOf : Id → Option Id) (stock : List StockLevel)
    (previous next : List FulfillmentSplit) : Except DomainError (List StockLevel) := do
  let stock ← previous.foldlM
    (fun stock split => mutateReserved fl productOf stock split (-split.quantity)) stock
  next.foldlM (reserveNext fl productOf) stock

def consumeSplit (fl : Rounding) (productOf : Id → Option Id) (stock : List StockLevel)
    (split : FulfillmentSplit) : Except DomainError (List StockLevel) :=
  if split.isBackorder then .ok stock
  else
    match splitRow productOf stock split with
    | none =>
        .error (conflict "Stock row missing at confirmation"
          [("warehouseId", .id split.warehouseId),
            ("productId", ((productOf split.quoteLineId).map .id).getD .missing)])
    | some row =>
        .ok (updateRow row.key
          (fun row =>
            { row with
              quantityOnHand := max 0 (fl (row.quantityOnHand - split.quantity))
              reserved := max 0 (fl (row.reserved - split.quantity)) }) stock)

def consumeStockOnConfirm (fl : Rounding) (productOf : Id → Option Id) (stock : List StockLevel)
    (allocations : List FulfillmentSplit) : Except DomainError (List StockLevel) :=
  allocations.foldlM (consumeSplit fl productOf) stock

end DealFlow360
