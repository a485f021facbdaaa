import DealFlow360.Types
import DealFlow360.Lib.Table

/-!
# Recommendations

A relation offers its product when the quote holds enough of the product it
starts from and none of the product it recommends.

The relations are gone through in the order of the store, and what they ask is
the quantity of a product over all lines of the quote. A recommendation carries
the relation's reason and promotion, and the product's list price as what it
would add.
-/

namespace DealFlow360

structure Recommendation where
  relationId : Id
  kind : RelationKind
  product : Product
  reason : String
  promotion : Option String
  priceImpact : Num
  marginImpact : Num
  deriving DecidableEq, Repr

/-- The quantity of each product on the quote, in the order the products appear. -/
def quantityByProduct (lines : List QuoteLine) : List (Id × Num) :=
  lines.foldl (fun sums line =>
    let before := ((Table.lookup Prod.fst line.productId sums).map (·.2)).getD 0
    Table.upsert Prod.fst (line.productId, before + line.quantity) sums) []

def recommendProducts (lines : List QuoteLine) (products : List Product)
    (relations : List ProductRelation) : List Recommendation :=
  let quantities : List (Id × Num) := quantityByProduct lines
  relations.filterMap fun (relation : ProductRelation) =>
    let quantity := ((Table.lookup Prod.fst relation.productId quantities).map (·.2)).getD 0
    if quantity < relation.minQuantity then none
    else if (Table.lookup Prod.fst relation.recommendedProductId quantities).isSome then none
    else
      (products.find? fun item => item.id = relation.recommendedProductId).map fun product =>
        { relationId := relation.id
          kind := relation.kind
          product
          reason := relation.reason
          promotion := relation.promotion
          priceImpact := product.listPrice
          marginImpact := product.listPrice - product.cost }

end DealFlow360
