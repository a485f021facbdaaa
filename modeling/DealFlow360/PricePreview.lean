import DealFlow360.BreakSelection

/-!
# The price the workspace previews

Before a product is added, the browser shows the unit price its quantity will
get. It selects the break with a copy of the pricing engine's code, but the
copy does not leave out the breaks that are switched off.

The browser's selection is modelled from its own source, not from the server's:
`previewUnitPrice` filters and ranks like `selectQuantityBreak` but for the
switch. So its candidates contain the engine's (`candidateBreaks_eq`), and the
two prices agree exactly where no break that is switched off comes first and
makes another price. Rounding is the same on both sides.
-/

namespace DealFlow360

structure PreviewPrice where
  unitPrice : Num
  ruleName : String
  deriving DecidableEq, Repr

/-- The break `previewUnitPrice` prices with. -/
def previewBreak (product : Product) (quantity : Num) (breaks : Option (List QuantityBreak))
    (customerTier : Option CustomerTier) : Option QuantityBreak :=
  (sortBy compareBreaks
    (((breaks.getD []).filter fun item =>
        item.productId = product.id && (item.customerTier = none || item.customerTier = customerTier)).filter
      fun item => item.minQuantity ≤ quantity && item.maxQuantity.all (quantity ≤ ·))).head?

def previewUnitPrice (product : Product) (quantity : Num) (breaks : Option (List QuantityBreak))
    (customerTier : Option CustomerTier) : PreviewPrice :=
  match previewBreak product quantity breaks customerTier with
  | none => { unitPrice := product.listPrice, ruleName := "List price" }
  | some selected =>
      match selected.adjustmentKind with
      | .percent =>
          { unitPrice := mathRound (product.listPrice * (1 + selected.adjustmentValue / 100) * 100) / 100
            ruleName := selected.name }
      | .fixed =>
          { unitPrice := selected.adjustmentValue
            ruleName := selected.name }

/-! ## What a break makes of the price -/

/-- The price of a product under a break, or under none. -/
def adjustedPrice (product : Product) : Option QuantityBreak → Num
  | none => product.listPrice
  | some item =>
      match item.adjustmentKind with
      | .percent => round (product.listPrice * (1 + item.adjustmentValue / 100)) 2
      | .fixed => item.adjustmentValue

theorem resolveUnitPrice_unitPrice (product : Product) (quantity : Num) (breaks : List QuantityBreak)
    (customerTier : Option CustomerTier) :
    (resolveUnitPrice product quantity breaks customerTier).unitPrice =
      adjustedPrice product (selectQuantityBreak breaks product.id quantity customerTier) := by
  unfold resolveUnitPrice adjustedPrice
  cases selectQuantityBreak breaks product.id quantity customerTier with
  | none => rfl
  | some item =>
      dsimp only
      cases item.adjustmentKind with
      | percent => rfl
      | fixed => rfl

/-- The browser rounds as the pricing engine does. -/
theorem previewUnitPrice_unitPrice (product : Product) (quantity : Num) (breaks : Option (List QuantityBreak))
    (customerTier : Option CustomerTier) :
    (previewUnitPrice product quantity breaks customerTier).unitPrice =
      adjustedPrice product (previewBreak product quantity breaks customerTier) := by
  unfold previewUnitPrice adjustedPrice
  cases previewBreak product quantity breaks customerTier with
  | none => rfl
  | some item =>
      dsimp only
      cases item.adjustmentKind with
      | percent =>
          dsimp only
          unfold round
          norm_num
      | fixed => rfl

/-! ## Which breaks apply -/

/-- The breaks, switched off or not, for the product, tier and quantity. -/
def applicableBreaks (breaks : List QuantityBreak) (productId : Id) (quantity : Num)
    (customerTier : Option CustomerTier) : List QuantityBreak :=
  breaks.filter fun item =>
    item.productId = productId && (item.customerTier = none || item.customerTier = customerTier) &&
      (item.minQuantity ≤ quantity && item.maxQuantity.all (quantity ≤ ·))

theorem previewBreak_eq (product : Product) (quantity : Num) (breaks : Option (List QuantityBreak))
    (customerTier : Option CustomerTier) :
    previewBreak product quantity breaks customerTier =
      (applicableBreaks (breaks.getD []) product.id quantity customerTier).argmax breakScore := by
  unfold previewBreak applicableBreaks
  rw [sortBy_eq_ranked compareBreaks_nonpos, Top.head?_ranked, List.filter_filter]
  congr 2
  funext item
  exact Bool.and_comm _ _

/-- The engine's candidates are those of the applicable breaks that are not switched off. -/
theorem candidateBreaks_eq (breaks : List QuantityBreak) (productId : Id) (quantity : Num)
    (customerTier : Option CustomerTier) :
    candidateBreaks breaks productId quantity customerTier =
      (applicableBreaks breaks productId quantity customerTier).filter (·.active ≠ some false) := by
  unfold candidateBreaks matchingQuantityBreaks applicableBreaks
  rw [List.filter_filter, List.filter_filter]
  congr 1
  funext item
  cases decide (item.active ≠ some false) <;> simp [Bool.and_comm, Bool.and_left_comm]

/-! ## When they agree -/

/-- The first break that applies is not switched off, or makes the price that the first one in use makes. -/
def PreviewedAsPriced (product : Product) (quantity : Num) (breaks : List QuantityBreak)
    (customerTier : Option CustomerTier) : Prop :=
  let applicable := applicableBreaks breaks product.id quantity customerTier
  ∀ item ∈ applicable.argmax breakScore, item.active = some false →
    adjustedPrice product (some item) =
      adjustedPrice product ((applicable.filter (·.active ≠ some false)).argmax breakScore)

/-- The price shown is the price the server takes exactly where no break that is switched off comes first and makes
another price. -/
theorem preview_eq_resolved_iff (product : Product) (quantity : Num) (breaks : Option (List QuantityBreak))
    (customerTier : Option CustomerTier) :
    (previewUnitPrice product quantity breaks customerTier).unitPrice =
        (resolveUnitPrice product quantity (breaks.getD []) customerTier).unitPrice ↔
      PreviewedAsPriced product quantity (breaks.getD []) customerTier := by
  rw [previewUnitPrice_unitPrice, resolveUnitPrice_unitPrice, previewBreak_eq, selectQuantityBreak_eq,
    candidateBreaks_eq]
  unfold PreviewedAsPriced
  dsimp only
  generalize applicableBreaks (breaks.getD []) product.id quantity customerTier = applicable
  cases hfirst : applicable.argmax breakScore with
  | none =>
      obtain rfl := List.argmax_eq_none.mp hfirst
      exact iff_of_true rfl nofun
  | some item =>
      by_cases hactive : item.active = some false
      · constructor
        · intro heq other hother _
          obtain rfl := Option.some.inj hother
          exact heq
        · intro h
          exact h item rfl hactive
      · have hbest := Top.argmax_filter (p := (·.active ≠ some false)) hfirst (decide_eq_true hactive)
        rw [hbest]
        refine iff_of_true rfl fun other hother hoff => ?_
        obtain rfl := Option.some.inj hother
        exact absurd hoff hactive

/-- A promotion that was switched off. -/
def endedPromotion : QuantityBreak where
  id := 3
  name := "Autumn"
  productId := 7
  minQuantity := 1
  adjustmentKind := .fixed
  adjustmentValue := 50
  active := some false

/-- The browser shows fifty for a laptop that the server sells for a hundred. -/
theorem ended_promotion_shown :
    ¬∀ (product : Product) (quantity : Num) (breaks : Option (List QuantityBreak))
        (customerTier : Option CustomerTier),
      (previewUnitPrice product quantity breaks customerTier).unitPrice =
        (resolveUnitPrice product quantity (breaks.getD []) customerTier).unitPrice := by
  intro h
  have hpreview : (previewUnitPrice laptop 1 (some [endedPromotion]) none).unitPrice = 50 := by decide
  have hresolved : (resolveUnitPrice laptop 1 [endedPromotion] none).unitPrice = 100 := by decide
  have heq := h laptop 1 (some [endedPromotion]) none
  rw [hpreview, Option.getD_some, hresolved] at heq
  exact absurd heq (by norm_num)

end DealFlow360
