import DealFlow360.Errors
import Mathlib.Algebra.BigOperators.Ring.List
import Mathlib.Tactic.Ring

/-!
# Unit prices and tax

A product's unit price is its list price, or what the best matching quantity
break makes of it. Tax is charged on the net of every line whose product is
taxable.

`selectQuantityBreak` filters the breaks of the product and tier, sorts them by
the source's comparison and takes the first; `resolveUnitPrice` applies it and
reports the rule's name and id. The tax is a sum over the taxable lines,
rounded once (`computeTaxTotal_eq`). What the selection depends on is proved in
the module about the one break that applies.
-/

namespace DealFlow360

/-! ## Quantity breaks -/

def matchingQuantityBreaks (breaks : List QuantityBreak) (productId : Id)
    (customerTier : Option CustomerTier) : List QuantityBreak :=
  breaks.filter fun item =>
    item.active ≠ some false && item.productId = productId
      && (item.customerTier = none || item.customerTier = customerTier)

/-- Tier-specific breaks come first, then the higher minimum quantity. -/
def compareBreaks (left right : QuantityBreak) : Num :=
  let spec : Num := (if right.customerTier.isSome then 1 else 0)
    - (if left.customerTier.isSome then 1 else 0)
  if spec ≠ 0 then spec else right.minQuantity - left.minQuantity

def selectQuantityBreak (breaks : List QuantityBreak) (productId : Id) (quantity : Num)
    (customerTier : Option CustomerTier) : Option QuantityBreak :=
  (sortBy compareBreaks
    ((matchingQuantityBreaks breaks productId customerTier).filter fun item =>
      item.minQuantity ≤ quantity && item.maxQuantity.all (quantity ≤ ·))).head?

structure UnitPrice where
  unitPrice : Num
  ruleName : String
  breakId : Option Id := none
  deriving DecidableEq, Repr

def resolveUnitPrice (product : Product) (quantity : Num) (breaks : List QuantityBreak)
    (customerTier : Option CustomerTier) : UnitPrice :=
  match selectQuantityBreak breaks product.id quantity customerTier with
  | none => { unitPrice := product.listPrice, ruleName := "List price" }
  | some selected =>
      match selected.adjustmentKind with
      | .percent =>
          { unitPrice := round (product.listPrice * (1 + selected.adjustmentValue / 100)) 2
            ruleName := selected.name
            breakId := some selected.id }
      | .fixed =>
          { unitPrice := selected.adjustmentValue
            ruleName := selected.name
            breakId := some selected.id }

/-! ## Tax -/

namespace Tax

def lineNetAmount (line : QuoteLine) : Num :=
  line.listPrice * line.quantity * (1 - line.discountPercent / 100)

/-- Whether a line's product exempts it from tax; a line without a product is taxed. -/
def isExempt (products : List Product) (line : QuoteLine) : Bool :=
  (products.find? fun item => item.id = line.productId).any fun product =>
    product.taxable = some false

def computeTaxTotal (lines : List QuoteLine) (products : List Product)
    (config : GovernanceConfig) : Num :=
  let rate := max 0 config.taxRatePercent / 100
  if rate = 0 then 0
  else
    let taxable := lines.foldl
      (fun sum line => if isExempt products line then sum else sum + lineNetAmount line) 0
    round (taxable * rate) 2

/-- The rate a line is charged: none where it is exempt. -/
def lineRate (products : List Product) (config : GovernanceConfig) (line : QuoteLine) : Num :=
  if isExempt products line then 0 else max 0 config.taxRatePercent / 100

theorem taxable_eq (products : List Product) (lines : List QuoteLine) (start : Num) :
    lines.foldl (fun sum line => if isExempt products line then sum else sum + lineNetAmount line)
        start
      = start + (lines.map fun line =>
          if isExempt products line then 0 else lineNetAmount line).sum := by
  induction lines generalizing start with
  | nil => simp
  | cons line lines ih =>
      rw [List.foldl_cons, ih, List.map_cons, List.sum_cons]
      split
      · rw [zero_add]
      · rw [add_assoc]

/-- The tax is charged line by line and rounded once. -/
theorem computeTaxTotal_eq (lines : List QuoteLine) (products : List Product)
    (config : GovernanceConfig) :
    computeTaxTotal lines products config
      = round ((lines.map fun line => lineNetAmount line * lineRate products config line).sum) 2 := by
  have hsum : (lines.map fun line => lineNetAmount line * lineRate products config line).sum
      = (lines.map fun line => if isExempt products line then 0 else lineNetAmount line).sum
          * (max 0 config.taxRatePercent / 100) := by
    rw [← List.sum_map_mul_right]
    congr 1
    refine List.map_congr_left fun line _ => ?_
    unfold lineRate
    split <;> ring
  rw [hsum]
  unfold computeTaxTotal
  dsimp only
  split
  · rename_i hrate
    rw [hrate, mul_zero]
    decide +kernel
  · rw [taxable_eq, zero_add]

end Tax

end DealFlow360
