import DealFlow360.Errors

/-!
# Loyalty tiers and discount authority

A customer's tier follows the number of won purchases; the discount an actor
may grant is the role's maximum plus the tier's bonus, under the commercial
cap.

The ceiling has its parts (the role's maximum, the bonus, the key of the
matched role), because the refusal names them in its message and its details.
`discount_le_of_assert` is what a passed check gives, up to the tolerance the
source allows for doubles; every invariant about discounts starts from it.
-/

namespace DealFlow360

inductive LoyaltyTier where
  | new | gold | platinum
  deriving DecidableEq, Repr

def LoyaltyTier.text : LoyaltyTier → String
  | new => "new"
  | gold => "gold"
  | platinum => "platinum"

def CustomerTier.text : CustomerTier → String
  | standard => "standard"
  | silver => "silver"
  | gold => "gold"
  | strategic => "strategic"
  | platinum => "platinum"

def wonPurchaseCountToTier (count : ℕ) : LoyaltyTier :=
  if 5 ≤ count then .platinum else if 2 ≤ count then .gold else .new

def normalizeCustomerTier (tier : String) : LoyaltyTier :=
  if tier = "gold" then .gold
  else if tier = "platinum" ∨ tier = "strategic" then .platinum
  else .new

def loyaltyBonusPercent (tier : String) : Num :=
  match normalizeCustomerTier tier with
  | .platinum => 10
  | .gold => 5
  | .new => 0

def persistCustomerTier (tier : String) : CustomerTier :=
  match normalizeCustomerTier tier with
  | .platinum => .platinum
  | .gold => .gold
  | .new => .standard

def actorDiscountRoles (actor : Option Actor) : List String :=
  match actor with
  | none => []
  | some actor => (actor.role.toList ++ actor.roles).filter (· ≠ "")

def discountRoleKeys : List String := ["staff", "manager", "finance"]

/-- The authority an admin has where no finance row is configured. -/
def adminAuthority : RoleAuthority where
  roleKey := "finance"
  maxDiscountPercent := 15
  minMarginPercent := 10
  maxPriceOverridePercent := 15
  canNegotiate := true
  exceedAction := .block

def matchDiscountAuthority (authorities : List RoleAuthority) (actor : Option Actor) :
    Option RoleAuthority :=
  if authorities.isEmpty || actor.isNone then none
  else
    let keys := actorDiscountRoles actor
    let matched := sortBy (fun left right => right.maxDiscountPercent - left.maxDiscountPercent)
      (authorities.filter fun item => item.roleKey ∈ keys && item.roleKey ∈ discountRoleKeys)
    match matched.head? with
    | some authority => some authority
    | none =>
        if "admin" ∈ keys then
          some ((authorities.find? fun item => item.roleKey = "finance").getD adminAuthority)
        else none

/-- What an actor may grant, and how it adds up. -/
structure DiscountCeiling where
  roleMax : Num
  loyaltyBonus : Num
  ceiling : Num
  roleKey : Option String
  deriving DecidableEq, Repr

def actorDiscountCeiling (authorities : List RoleAuthority) (actor : Option Actor)
    (loyaltyTier : LoyaltyTier) (config : GovernanceConfig) : DiscountCeiling :=
  let authority := matchDiscountAuthority authorities actor
  let roleMax := (authority.map (·.maxDiscountPercent)).getD 0
  let loyaltyBonus :=
    if config.allowLoyaltyStacking = false then 0 else loyaltyBonusPercent loyaltyTier.text
  { roleMax
    loyaltyBonus
    ceiling := min config.maxCommercialDiscountPercent (roleMax + loyaltyBonus)
    roleKey := authority.map (·.roleKey) }

/-- The tolerance of the authority checks, `1e-9`. -/
def authorityTolerance : Num := 1 / 10 ^ 9

def assertPriceOverrideWithinAuthority (rulePrice appliedPrice : Num)
    (authorities : List RoleAuthority) (actor : Option Actor) : Except DomainError Unit :=
  let authority := matchDiscountAuthority authorities actor
  let most := (authority.map (·.maxPriceOverridePercent)).getD 0
  let roleKey := authority.map (·.roleKey)
  let who := roleKey.getD "actor"
  let overridePercent :=
    if rulePrice = 0 then 0 else |appliedPrice - rulePrice| / rulePrice * 100
  if authorityTolerance < overridePercent - most then
    .error (forbidden
      s!"Unit price override {fixedText 2 overridePercent}% exceeds the {who} ceiling of {numText most}%."
      [("overridePercent", .num overridePercent), ("max", .num most),
        ("roleKey", (roleKey.map .text).getD .missing)])
  else .ok ()

def assertDiscountWithinAuthority (discountPercent : Num) (authorities : List RoleAuthority)
    (actor : Option Actor) (loyaltyTier : LoyaltyTier) (config : GovernanceConfig) :
    Except DomainError Unit :=
  let found := actorDiscountCeiling authorities actor loyaltyTier config
  let who := found.roleKey.getD "actor"
  if authorityTolerance < discountPercent - found.ceiling then
    .error (forbidden
      (s!"Requested discount {numText discountPercent}% exceeds the {who} authority of {numText found.ceiling}% " ++
        s!"(role {numText found.roleMax}% + loyalty {numText found.loyaltyBonus}%). " ++
        "Send the quotation to a Sales Manager.")
      [("discountPercent", .num discountPercent), ("ceiling", .num found.ceiling),
        ("roleMax", .num found.roleMax), ("loyaltyBonus", .num found.loyaltyBonus),
        ("roleKey", (found.roleKey.map .text).getD .missing), ("approvalRequired", .text "manager")])
  else .ok ()

/-- Persisting a persisted tier changes nothing. -/
theorem persistCustomerTier_persisted (tier : String) :
    persistCustomerTier (persistCustomerTier tier).text = persistCustomerTier tier := by
  unfold persistCustomerTier
  cases normalizeCustomerTier tier <;> decide

/-- A granted discount lies within the ceiling, up to the tolerance. -/
theorem discount_le_of_assert {discountPercent : Num} {authorities : List RoleAuthority}
    {actor : Option Actor} {loyaltyTier : LoyaltyTier} {config : GovernanceConfig} {u : Unit}
    (h : assertDiscountWithinAuthority discountPercent authorities actor loyaltyTier config = .ok u) :
    discountPercent ≤ (actorDiscountCeiling authorities actor loyaltyTier config).ceiling
      + authorityTolerance := by
  simp only [assertDiscountWithinAuthority] at h
  split at h
  · cases h
  · rename_i hle
    have := not_lt.mp hle
    linarith

end DealFlow360
