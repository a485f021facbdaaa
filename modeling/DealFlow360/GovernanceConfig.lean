import DealFlow360.Errors

/-!
# Validation of governance settings

What a configuration must satisfy before it is stored. Checks a field's type
already makes (a finite number, a known pricing mode) leave no case here.

The checks come in the order of the source and stop at the first that fails;
every error names the field it is about and carries the source's message.
`validateQuantityBreaks` and `validateRoleAuthorities` check the entries one by
one and then against one another. That the defaults pass is
`validateGovernance_default`.
-/

namespace DealFlow360

/-- The first failing check throws; a check is its condition and its error. -/
def firstFailure (checks : List (Bool × DomainError)) : Except DomainError Unit :=
  match checks.find? (·.1) with
  | some check => .error check.2
  | none => .ok ()

theorem firstFailure_eq_ok {checks : List (Bool × DomainError)} {u : Unit} :
    firstFailure checks = .ok u ↔ ∀ check ∈ checks, check.1 = false := by
  unfold firstFailure
  cases hfind : checks.find? (·.1) with
  | some check =>
      have hmem := List.mem_of_find?_eq_some hfind
      have htrue : check.1 = true := by simpa using List.find?_some hfind
      refine ⟨fun h => (nomatch h), fun hall => ?_⟩
      rw [hall check hmem] at htrue
      cases htrue
  | none =>
      refine ⟨fun _ check hmem => ?_, fun _ => rfl⟩
      simpa using List.find?_eq_none.mp hfind check hmem

/-! ## Quantity breaks -/

def normalizeQuantityBreak (item : QuantityBreak) (index : ℕ) : Except DomainError QuantityBreak := do
  let named : Details := [("index", .num index), ("name", .text item.name)]
  firstFailure
    [(trim item.name = "", invalid "Quantity break name is required" [("index", .num index)]),
     (item.minQuantity < 1, invalid "Minimum quantity must be at least 1" named),
     (item.maxQuantity.any (· < item.minQuantity),
       invalid "Minimum quantity cannot exceed maximum quantity" named),
     (item.adjustmentKind = .fixed && item.adjustmentValue < 0,
       invalid "Fixed price cannot be negative" named),
     (item.adjustmentKind = .percent && (item.adjustmentValue < -100 || 100 < item.adjustmentValue),
       invalid "Percent adjustment must be between -100 and 100" named)]
  return { item with name := trim item.name, active := some (item.active ≠ some false) }

/-- Two breaks compete for the same quantities of the same product and tier. -/
def overlaps (left right : QuantityBreak) : Bool :=
  left.productId = right.productId && left.customerTier = right.customerTier
    && right.maxQuantity.all (left.minQuantity ≤ ·) && left.maxQuantity.all (right.minQuantity ≤ ·)

/-- The first pair that overlaps, in the order of the two nested loops. -/
def firstOverlap : List QuantityBreak → Option (QuantityBreak × QuantityBreak)
  | [] => none
  | left :: rest =>
      match rest.find? (overlaps left) with
      | some right => some (left, right)
      | none => firstOverlap rest

def validateQuantityBreaks (items : List QuantityBreak) : Except DomainError (List QuantityBreak) := do
  let normalized ← items.zipIdx.mapM fun entry => normalizeQuantityBreak entry.1 entry.2
  match firstOverlap (normalized.filter (·.active = some true)) with
  | some (left, right) =>
      throw (invalid "Active quantity ranges cannot overlap for the same product and customer"
        [("left", .text left.name), ("right", .text right.name)])
  | none => return normalized

/-! ## Role authorities -/

/-- A percentage outside 0 to 100. -/
def notPercent (x : Num) : Bool := x < 0 || 100 < x

/-- One authority, after the role keys `seen` before it. -/
def normalizeRoleAuthority (seen : List String) (item : RoleAuthority) (index : ℕ) :
    Except DomainError RoleAuthority := do
  let roleKey := trim item.roleKey
  let named : Details := [("roleKey", .text roleKey)]
  firstFailure
    [(roleKey = "", invalid "Role key is required" [("index", .num index)]),
     (roleKey ∈ seen, invalid "Duplicate role rule" named),
     (notPercent item.maxDiscountPercent, invalid "Maximum discount must be between 0 and 100" named),
     (notPercent item.minMarginPercent, invalid "Minimum margin must be between 0 and 100" named),
     (notPercent item.maxPriceOverridePercent,
       invalid "Price override must be between 0 and 100" named)]
  return { item with roleKey }

def validateRoleAuthorities (items : List RoleAuthority) : Except DomainError (List RoleAuthority) :=
  items.zipIdx.foldlM (fun (done : List RoleAuthority) entry => do
    let next ← normalizeRoleAuthority (done.map (·.roleKey)) entry.1 entry.2
    return done ++ [next]) []

/-! ## Governance -/

/-- The fields of a governance update that were sent. -/
structure GovernanceUpdate where
  cumulativeWarningLimit : Option Num := none
  materialDiscountDeltaPp : Option Num := none
  materialTotalDeltaRatio : Option Num := none
  highValueNetTotal : Option Num := none
  maxApprovalLevels : Option Num := none
  taxRatePercent : Option Num := none
  staleQuoteDays : Option Num := none
  unusualDiscountPercent : Option Num := none
  largeDealNetTotal : Option Num := none
  maxCommercialDiscountPercent : Option Num := none
  allowLoyaltyStacking : Option Bool := none
  deriving DecidableEq, Repr

/-- `{ ...previous, ...input }`. -/
def GovernanceUpdate.apply (input : GovernanceUpdate) (previous : GovernanceConfig) :
    GovernanceConfig where
  cumulativeWarningLimit := input.cumulativeWarningLimit.getD previous.cumulativeWarningLimit
  materialDiscountDeltaPp := input.materialDiscountDeltaPp.getD previous.materialDiscountDeltaPp
  materialTotalDeltaRatio := input.materialTotalDeltaRatio.getD previous.materialTotalDeltaRatio
  highValueNetTotal := input.highValueNetTotal.getD previous.highValueNetTotal
  maxApprovalLevels := input.maxApprovalLevels.getD previous.maxApprovalLevels
  taxRatePercent := input.taxRatePercent.getD previous.taxRatePercent
  staleQuoteDays := input.staleQuoteDays.getD previous.staleQuoteDays
  unusualDiscountPercent := input.unusualDiscountPercent.getD previous.unusualDiscountPercent
  largeDealNetTotal := input.largeDealNetTotal.getD previous.largeDealNetTotal
  maxCommercialDiscountPercent :=
    input.maxCommercialDiscountPercent.getD previous.maxCommercialDiscountPercent
  allowLoyaltyStacking := input.allowLoyaltyStacking.getD previous.allowLoyaltyStacking

def governanceChecks (input : GovernanceConfig) : List (Bool × DomainError) :=
  [(input.highValueNetTotal < 0, invalid "High-value threshold must be zero or greater"),
   (input.maxApprovalLevels.den ≠ 1 || input.maxApprovalLevels < 1 || 3 < input.maxApprovalLevels,
     invalid "Approval levels must be an integer from 1 to 3"),
   (input.cumulativeWarningLimit < 1, invalid "Cumulative warning limit must be at least 1"),
   (input.materialDiscountDeltaPp < 0, invalid "Material discount delta must be zero or greater"),
   (input.materialTotalDeltaRatio < 0 || 1 < input.materialTotalDeltaRatio,
     invalid "Material total ratio must be between 0 and 1"),
   (notPercent input.taxRatePercent, invalid "Tax rate must be between 0 and 100"),
   (input.staleQuoteDays < 1, invalid "Stale quote days must be at least 1"),
   (notPercent input.unusualDiscountPercent,
     invalid "Unusual discount threshold must be between 0 and 100"),
   (input.largeDealNetTotal < 0, invalid "Large-deal threshold must be zero or greater"),
   (notPercent input.maxCommercialDiscountPercent,
     invalid "Maximum commercial discount must be between 0 and 100")]

def validateGovernance (input : GovernanceConfig) : Except DomainError GovernanceConfig := do
  firstFailure (governanceChecks input)
  return input

/-- The defaults pass their own validation. -/
theorem validateGovernance_default :
    validateGovernance defaultGovernance = .ok defaultGovernance := by
  have hok : firstFailure (governanceChecks defaultGovernance) = .ok () :=
    firstFailure_eq_ok.mpr (by decide +kernel)
  rw [validateGovernance, hok]
  rfl

end DealFlow360
