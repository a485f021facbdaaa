import DealFlow360.Pricing
import DealFlow360.Loyalty

/-!
# Discount governance

`assessQuote` prices every line, holds its discount against the best matching
policy and the role's authority, and folds the lines into the totals, the risk
score and the decision of the quote.

The figures of a line are rounded as the source rounds them, the amounts to
four places and the percentages to two. The decision of a line starts from its
policy and is made stricter by the role's authority (`checkAuthority`); that of
the quote is the strictest of its lines, raised to an approval by too many
warnings or a high net total.

The last sections are the facts that callers use instead of unfolding the fold:
what an assessment depends on, `rank_assessQuote_le` for its decision, and when
it asks for no approval.
-/

namespace DealFlow360

/-! ## Policies and chains -/

def specificity (policy : DiscountPolicy) : Num :=
  (if policy.customerTier.isSome then 2 else 0) + (if policy.productCategory.isSome then 2 else 0)

def comparePolicies (left right : DiscountPolicy) : Num :=
  let spec := specificity right - specificity left
  if spec ≠ 0 then spec else left.priority - right.priority

def implicitDefault : DiscountPolicy where
  id := none
  name := "Implicit default"
  warningPercent := 3
  approvalPercent := 5
  rejectPercent := 25
  maxMarginImpactPercent := 40
  priority := 999

def selectPolicy (policies : List DiscountPolicy) (tier : CustomerTier) (category : String) :
    DiscountPolicy :=
  ((sortBy comparePolicies (policies.filter fun policy =>
    policy.active ≠ some false
      && (policy.customerTier = none || policy.customerTier = some tier)
      && (policy.productCategory = none || policy.productCategory = some category))).head?).getD
    implicitDefault

def compareChains (left right : ApprovalChain) : Num :=
  let severity := right.minRiskScore + right.minBlendedDiscountPercent
    - (left.minRiskScore + left.minBlendedDiscountPercent)
  if severity ≠ 0 then severity else left.priority - right.priority

def selectApprovalChain (chains : List ApprovalChain) (riskScore blendedDiscountPercent : Num) :
    Option ApprovalChain :=
  (sortBy compareChains (chains.filter fun chain =>
    chain.active ≠ some false
      && (chain.minRiskScore ≤ riskScore
        || chain.minBlendedDiscountPercent ≤ blendedDiscountPercent))).head?

def DiscountDecision.rank : DiscountDecision → ℕ
  | allowed => 0
  | warning => 1
  | approvalRequired => 2
  | rejected => 3

def worse (left right : DiscountDecision) : DiscountDecision :=
  if right.rank ≤ left.rank then left else right

/-- A decision about a line while the rules are still being asked. -/
structure Verdict where
  decision : DiscountDecision
  reasons : List String
  roleLimitExceeded : Bool := false
  deriving DecidableEq, Repr

def decideLineDiscount (discountPercent marginErosionPercent : Num) (policy : DiscountPolicy) :
    Verdict :=
  let asked := numText discountPercent
  let ceiling (kind : String) (limit : Num) : String :=
    let text := numText limit
    s!"Requested {asked}% exceeds {kind} ceiling {text}% ({policy.name})"
  let (decision, reasons) : DiscountDecision × List String :=
    if policy.rejectPercent ≤ discountPercent then
      (.rejected, [ceiling "reject" policy.rejectPercent])
    else if policy.approvalPercent ≤ discountPercent then
      (.approvalRequired, [ceiling "approval" policy.approvalPercent])
    else if policy.warningPercent ≤ discountPercent then
      (.warning, [ceiling "warning" policy.warningPercent])
    else (.allowed, [])
  let (decision, reasons) : DiscountDecision × List String :=
    if policy.maxMarginImpactPercent ≤ marginErosionPercent then
      let erosion := numText (round marginErosionPercent 2)
      let most := numText policy.maxMarginImpactPercent
      (if decision = .allowed ∨ decision = .warning then .approvalRequired else decision,
        reasons ++ [s!"Margin erosion {erosion}% exceeds {most}% ({policy.name})"])
    else (decision, reasons)
  { decision
    reasons :=
      if decision = .allowed then reasons ++ [s!"Within {policy.name} ceilings"] else reasons }

/-! ## One line -/

structure WarehouseAvailability where
  warehouseId : Id
  name : String
  available : Num
  deriving DecidableEq, Repr

inductive ApprovalScope where
  | line | quote
  deriving DecidableEq, Repr

structure LineAssessment where
  lineId : Id
  productId : Id
  sku : String
  quantity : Num
  discountPercent : Num
  listAmount : Num
  netAmount : Num
  costAmount : Num
  marginPercent : Num
  marginErosionPercent : Num
  policyId : Option Id
  policyName : String
  decision : DiscountDecision
  reasons : List String
  basePrice : Num
  appliedPrice : Num
  pricingRuleName : String
  roleLimitExceeded : Bool
  approvalScope : ApprovalScope
  warehouses : List WarehouseAvailability
  totalAvailable : Num
  shortfall : Num
  deriving DecidableEq, Repr

structure AssessmentInput where
  customerTier : CustomerTier
  lines : List (QuoteLine × Product)
  policies : List DiscountPolicy
  chains : List ApprovalChain
  config : GovernanceConfig
  actor : Option Actor := none
  quantityBreaks : List QuantityBreak
  roleAuthorities : List RoleAuthority
  stock : List StockLevel
  warehouses : List Warehouse

namespace AssessmentInput

def authority (input : AssessmentInput) : Option RoleAuthority :=
  matchDiscountAuthority input.roleAuthorities input.actor

/-- The tier the rules are asked with: `new` is filed under `standard`. -/
def tier (input : AssessmentInput) : CustomerTier :=
  persistCustomerTier input.customerTier.text

end AssessmentInput

/-- The rule price, unless the line's own price is more than half a cent away from it. -/
def appliedPrice (breaks : List QuantityBreak) (tier : CustomerTier) (line : QuoteLine)
    (product : Product) : Num :=
  let rulePrice := (resolveUnitPrice product line.quantity breaks (some tier)).unitPrice
  if 5 / 1000 < |line.listPrice - rulePrice| then line.listPrice else rulePrice

def listAmount (price : Num) (line : QuoteLine) : Num := round (price * line.quantity)

def netAmount (price : Num) (line : QuoteLine) : Num :=
  round (price * (1 - line.discountPercent / 100) * line.quantity)

/-- The three checks of a role's authority, in the order the source makes them. -/
def checkAuthority (authority : RoleAuthority) (discountPercent marginPercent overridePercent
    netAmount : Num) (verdict : Verdict) : Verdict :=
  let who := authority.roleKey
  let verdict :=
    if authority.maxDiscountPercent < discountPercent then
      let asked := numText discountPercent
      let most := numText authority.maxDiscountPercent
      { decision :=
          match authority.exceedAction with
          | .block => .rejected
          | .approval => worse verdict.decision .approvalRequired
          | .allow => verdict.decision
        reasons := verdict.reasons ++ [s!"Requested {asked}% exceeds {who} authorized range {most}%"]
        roleLimitExceeded := true }
    else verdict
  let verdict :=
    if marginPercent < authority.minMarginPercent ∧ 0 < netAmount then
      let margin := numText marginPercent
      let floor := numText authority.minMarginPercent
      { verdict with
        decision :=
          match authority.exceedAction with
          | .block => .rejected
          | _ => worse verdict.decision .approvalRequired
        reasons := verdict.reasons ++ [s!"Margin {margin}% is below the {who} floor of {floor}%"] }
    else verdict
  if authority.maxPriceOverridePercent < overridePercent then
    let override := numText overridePercent
    let most := numText authority.maxPriceOverridePercent
    { decision :=
        match authority.exceedAction with
        | .block => .rejected
        | .approval => worse verdict.decision .approvalRequired
        | .allow => verdict.decision
      reasons := verdict.reasons ++ [s!"Unit price override {override}% exceeds {who} authorized {most}%"]
      roleLimitExceeded := true }
  else verdict

def assessLine (input : AssessmentInput) (line : QuoteLine) (product : Product) : LineAssessment :=
  let priced := resolveUnitPrice product line.quantity input.quantityBreaks (some input.tier)
  let rulePrice := priced.unitPrice
  let price := appliedPrice input.quantityBreaks input.tier line product
  let overridePercent := if rulePrice = 0 then 0 else round (|price - rulePrice| / rulePrice * 100) 2
  let listAmount := listAmount price line
  let netAmount := netAmount price line
  let costAmount := round (product.cost * line.quantity)
  let standardMargin := (product.listPrice - product.cost) * line.quantity
  let actualMargin := netAmount - costAmount
  let marginPercent := if netAmount = 0 then 0 else round (actualMargin / netAmount * 100) 2
  let marginErosionPercent :=
    if standardMargin ≤ 0 then (if 0 < line.discountPercent then 100 else 0)
    else round ((standardMargin - actualMargin) / standardMargin * 100) 2
  let policy := selectPolicy input.policies input.tier product.category
  let decided := decideLineDiscount line.discountPercent marginErosionPercent policy
  let verdict :=
    match input.authority with
    | none => decided
    | some authority =>
        checkAuthority authority line.discountPercent marginPercent overridePercent netAmount decided
  let warehouses := input.warehouses.map fun warehouse =>
    let row := input.stock.find? fun item =>
      item.warehouseId = warehouse.id && item.productId = product.id
    { warehouseId := warehouse.id
      name := warehouse.name
      available := max 0 ((row.map (·.quantityOnHand)).getD 0 - (row.map (·.reserved)).getD 0) }
  let totalAvailable := warehouses.foldl (fun sum item => sum + item.available) 0
  { lineId := line.id
    productId := product.id
    sku := product.sku
    quantity := line.quantity
    discountPercent := line.discountPercent
    listAmount
    netAmount
    costAmount
    marginPercent
    marginErosionPercent
    policyId := policy.id
    policyName := policy.name
    decision := verdict.decision
    reasons := verdict.reasons
    basePrice := product.listPrice
    appliedPrice := price
    pricingRuleName := if 0 < overridePercent then priced.ruleName ++ " · override" else priced.ruleName
    roleLimitExceeded := verdict.roleLimitExceeded
    approvalScope :=
      if verdict.decision = .approvalRequired ∨ verdict.decision = .rejected then .line else .quote
    warehouses
    totalAvailable
    shortfall := max 0 (line.quantity - totalAvailable) }

/-! ## The quote -/

structure QuoteAssessment where
  decision : DiscountDecision
  blendedDiscountPercent : Num
  riskScore : Num
  listTotal : Num
  discountTotal : Num
  netTotal : Num
  costTotal : Num
  marginPercent : Num
  warningCount : ℕ
  approvalLineCount : ℕ
  rejectedCount : ℕ
  cumulativeEscalated : Bool
  requiredChainId : Option Id
  requiredChainName : Option String
  lines : List LineAssessment
  reasons : List String
  highValue : Bool
  mergeRisk : Bool
  mergeRiskReasons : List String
  deriving DecidableEq, Repr

def sumOver (f : LineAssessment → Num) (lines : List LineAssessment) : Num :=
  lines.foldl (fun sum line => sum + f line) 0

/-- The totals of a list of assessed lines. -/
structure Totals where
  listTotal : Num
  discountTotal : Num
  netTotal : Num
  deriving DecidableEq, Repr

def totalsOf (listSum netSum : Num) : Totals where
  listTotal := round listSum
  discountTotal := round (listSum - netSum)
  netTotal := round netSum

def assessQuote (input : AssessmentInput) : QuoteAssessment :=
  let config := input.config
  let lines := input.lines.map fun entry => assessLine input entry.1 entry.2
  let warningCount := lines.countP (·.decision = .warning)
  let approvalLineCount := lines.countP (·.decision = .approvalRequired)
  let rejectedCount := lines.countP (·.decision = .rejected)
  let listTotal := sumOver (·.listAmount) lines
  let netTotal := sumOver (·.netAmount) lines
  let costTotal := sumOver (·.costAmount) lines
  let totals := totalsOf listTotal netTotal
  let blendedDiscountPercent :=
    if listTotal = 0 then 0 else round (totals.discountTotal / listTotal * 100) 2
  let marginPercent := if netTotal = 0 then 0 else round ((netTotal - costTotal) / netTotal * 100) 2
  let cumulativeEscalated : Bool := config.cumulativeWarningLimit ≤ warningCount
  let riskScore := round (clamp
    (blendedDiscountPercent * (5 / 2)
      + sumOver (·.marginErosionPercent) lines / max lines.length 1 * (2 / 5)
      + warningCount * 8 + approvalLineCount * 15 + rejectedCount * 40) 0 100) 2
  let decision := lines.foldl (fun decision line => worse decision line.decision) .allowed
  let decision :=
    if decision ≠ .rejected ∧ cumulativeEscalated then worse decision .approvalRequired else decision
  let limit := numText config.cumulativeWarningLimit
  let reasons := lines.flatMap (·.reasons) ++
    if cumulativeEscalated then
      [s!"{warningCount} warning-level lines reach the cumulative limit of {limit}"]
    else []
  let highValue : Bool := config.highValueNetTotal ≤ netTotal
  let net := numText (round netTotal)
  let threshold := numText config.highValueNetTotal
  let reasons := reasons ++
    if highValue then
      [s!"High-value approval: net {net} meets or exceeds the configured threshold {threshold}"]
    else []
  let decision :=
    if highValue ∧ decision ≠ .rejected then worse decision .approvalRequired else decision
  let lineApprovals := (lines.filter (·.approvalScope = .line)).length
  let mergeRisk : Bool := 2 ≤ lineApprovals
  let mergeRiskReasons :=
    if mergeRisk then
      [s!"Approval merge risk: {lineApprovals} product lines each require review. " ++
        "They stay itemized on one quote chain so a product-specific risk is not hidden."]
    else []
  let reasons := reasons ++ mergeRiskReasons
  let chain :=
    if decision = .approvalRequired ∨ decision = .rejected then
      selectApprovalChain input.chains riskScore blendedDiscountPercent
    else none
  let risk := numText riskScore
  let blended := numText blendedDiscountPercent
  let reasons := reasons ++
    match chain with
    | some chain => [s!"Approval chain \"{chain.name}\" selected (risk {risk}, blended {blended}%)"]
    | none => []
  { decision
    blendedDiscountPercent
    riskScore
    listTotal := totals.listTotal
    discountTotal := totals.discountTotal
    netTotal := totals.netTotal
    costTotal := round costTotal
    marginPercent
    warningCount
    approvalLineCount
    rejectedCount
    cumulativeEscalated
    requiredChainId := chain.map (·.id)
    requiredChainName := chain.map (·.name)
    lines
    reasons
    highValue
    mergeRisk
    mergeRiskReasons }

/-- The part of a quote a material change is measured against. -/
structure Standing where
  blendedDiscountPercent : Num
  netTotal : Num
  deriving DecidableEq, Repr

def isMaterialChange (before after : Standing) (config : GovernanceConfig) : Bool :=
  let discountDelta := after.blendedDiscountPercent - before.blendedDiscountPercent
  let totalDelta :=
    if before.netTotal = 0 then after.netTotal
    else |after.netTotal - before.netTotal| / before.netTotal
  config.materialDiscountDeltaPp ≤ discountDelta || config.materialTotalDeltaRatio ≤ totalDelta

def selectRoleAuthority (authorities : List RoleAuthority) (actor : Option Actor) :
    Option RoleAuthority :=
  matchDiscountAuthority authorities actor

/-! ## What an assessment depends on -/

theorem sumOver_eq (f : LineAssessment → Num) (lines : List LineAssessment) :
    sumOver f lines = (lines.map f).sum := by
  rw [sumOver, List.sum_eq_foldl, List.foldl_map]

/-- A decision that needs no chain selects none. -/
theorem requiredChainId_eq_none {input : AssessmentInput}
    (h : (assessQuote input).decision = .allowed ∨ (assessQuote input).decision = .warning) :
    (assessQuote input).requiredChainId = none := by
  simp only [assessQuote] at h ⊢
  rw [if_neg]
  · rfl
  · rcases h with h | h <;> rw [h] <;> decide

/-- The totals depend on the lines' amounts alone. -/
theorem totals_assessQuote (input : AssessmentInput) :
    ({ listTotal := (assessQuote input).listTotal
       discountTotal := (assessQuote input).discountTotal
       netTotal := (assessQuote input).netTotal } : Totals)
      = totalsOf
          ((input.lines.map fun entry =>
            listAmount (appliedPrice input.quantityBreaks input.tier entry.1 entry.2) entry.1).sum)
          ((input.lines.map fun entry =>
            netAmount (appliedPrice input.quantityBreaks input.tier entry.1 entry.2) entry.1).sum) := by
  simp only [assessQuote, sumOver_eq, List.map_map]
  rfl

/-! ## When an assessment asks for no approval -/

theorem rank_worse (left right : DiscountDecision) :
    (worse left right).rank = max left.rank right.rank := by
  cases left <;> cases right <;> rfl

theorem rank_le_one {decision : DiscountDecision} :
    decision.rank ≤ 1 ↔ decision = .allowed ∨ decision = .warning := by
  cases decision <;> decide

theorem rank_foldl_worse (lines : List LineAssessment) (decision : DiscountDecision) (n : ℕ) :
    (lines.foldl (fun decision line => worse decision line.decision) decision).rank ≤ n ↔
      decision.rank ≤ n ∧ ∀ line ∈ lines, line.decision.rank ≤ n := by
  induction lines generalizing decision with
  | nil => simp
  | cons line lines ih =>
      rw [List.foldl_cons, ih, rank_worse, List.forall_mem_cons, max_le_iff, and_assoc]

/-- A decision escalated under a condition is at least an approval where the condition holds. -/
theorem rank_escalate {decision : DiscountDecision} {escalates c : Prop} [Decidable escalates] {n : ℕ}
    (h : escalates ↔ decision ≠ .rejected ∧ c) :
    (if escalates then worse decision .approvalRequired else decision).rank ≤ n ↔
      decision.rank ≤ n ∧ (c → 2 ≤ n) := by
  have hrejected : DiscountDecision.rejected.rank = 3 := rfl
  have happroval : DiscountDecision.approvalRequired.rank = 2 := rfl
  by_cases hc : c
  · by_cases hdecision : decision = .rejected
    · rw [if_neg fun hesc => (h.mp hesc).1 hdecision, hdecision, hrejected]
      exact ⟨fun hle => ⟨hle, fun _ => by omega⟩, fun hle => hle.1⟩
    · rw [if_pos (h.mpr ⟨hdecision, hc⟩), rank_worse, happroval, max_le_iff]
      exact and_congr_right fun _ => ⟨fun hle _ => hle, fun hle => hle hc⟩
  · rw [if_neg fun hesc => hc (h.mp hesc).2]
    exact ⟨fun hle => ⟨hle, fun hc' => absurd hc' hc⟩, fun hle => hle.1⟩

/-- The decision of a quote is the strictest that its lines ask for, an approval at least where too many are warned
about or the net is high. -/
theorem rank_assessQuote_le (input : AssessmentInput) (n : ℕ) :
    (assessQuote input).decision.rank ≤ n ↔
      (∀ line ∈ (assessQuote input).lines, line.decision.rank ≤ n) ∧
        ((assessQuote input).cumulativeEscalated = true → 2 ≤ n) ∧
        ((assessQuote input).highValue = true → 2 ≤ n) := by
  have hallowed : DiscountDecision.allowed.rank ≤ n := Nat.zero_le n
  simp only [assessQuote]
  rw [rank_escalate and_comm, rank_escalate Iff.rfl, rank_foldl_worse, and_assoc, and_assoc]
  exact ⟨fun hle => hle.2, fun hle => ⟨hallowed, hle⟩⟩

/-- The rules ask for no approval of these lines: no line needs one, too few are warned about, and
the net stays below the high-value threshold. -/
structure NeedsNoApproval (input : AssessmentInput) : Prop where
  lines : ∀ entry ∈ input.lines,
    (assessLine input entry.1 entry.2).decision = .allowed ∨
      (assessLine input entry.1 entry.2).decision = .warning
  warnings : ((input.lines.countP fun entry =>
    (assessLine input entry.1 entry.2).decision = .warning : ℕ) : Num)
      < input.config.cumulativeWarningLimit
  net : (input.lines.map fun entry => (assessLine input entry.1 entry.2).netAmount).sum
    < input.config.highValueNetTotal

theorem decision_assessQuote_iff (input : AssessmentInput) :
    ((assessQuote input).decision = .allowed ∨ (assessQuote input).decision = .warning) ↔
      NeedsNoApproval input := by
  have hescalated : ∀ condition : Bool, (condition = true → 2 ≤ 1) ↔ ¬condition = true := fun condition =>
    imp_congr_right fun _ => by decide
  rw [← rank_le_one, rank_assessQuote_le, hescalated, hescalated]
  simp only [assessQuote, List.forall_mem_map, rank_le_one, sumOver_eq, List.map_map, List.countP_map,
    decide_eq_true_eq, not_le]
  constructor
  · rintro ⟨hlines, hwarnings, hnet⟩
    exact ⟨hlines, hwarnings, hnet⟩
  · rintro ⟨hlines, hwarnings, hnet⟩
    exact ⟨hlines, hwarnings, hnet⟩

end DealFlow360
