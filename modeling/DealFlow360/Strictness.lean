import DealFlow360.Defaults
import DealFlow360.Discount
import DealFlow360.Lib.Lists
import DealFlow360.Rounding

/-!
# A deeper discount is not judged more mildly

Raising the discount of a line raises the decision of every rule it is held
against but one: the margin floor of a role is asked only where the line still
earns something. The quote is judged more mildly only where that floor goes
out, or where its net falls under the high-value threshold.

Decisions are compared by their rank. `rank_assessLine` writes a line's rank as
the largest of what each rule asks for, and each of these is monotone in the
discount, but for the floor.

- `unflooredRank_mono` and `floor_kept`: everything else asks for no less, and
  the floor is replaced by something as strict unless it is lost;
- `rank_assessLine_mono`: a line;
- `rank_assessQuote_mono`: the quote, with its count of warnings and its
  threshold;
- `relaxed_iff`: exactly when a deeper discount relaxes the decision.

`FloorLost` is only where the floor asked for more than anything else does at
the new discount.
-/

namespace DealFlow360

/-! ## What each rule asks for -/

theorem rank_le_three (decision : DiscountDecision) : decision.rank ≤ 3 := by
  cases decision <;> decide

/-- What the ceilings of a policy ask for. -/
def ceilingRank (policy : DiscountPolicy) (discountPercent : Num) : ℕ :=
  if policy.rejectPercent ≤ discountPercent then 3
  else if policy.approvalPercent ≤ discountPercent then 2
  else if policy.warningPercent ≤ discountPercent then 1
  else 0

/-- What a role asks for where its authority is exceeded. -/
def exceedRank : AuthorityExceedAction → ℕ
  | .block => 3
  | .approval => 2
  | .allow => 0

/-- What a role asks for where a line earns less than its floor. -/
def floorRank : AuthorityExceedAction → ℕ
  | .block => 3
  | _ => 2

/-- A rule asks where its condition holds. -/
def asked (condition : Prop) [Decidable condition] (rank : ℕ) : ℕ := if condition then rank else 0

theorem asked_mono {condition condition' : Prop} [Decidable condition] [Decidable condition']
    (h : condition → condition') (rank : ℕ) : asked condition rank ≤ asked condition' rank := by
  unfold asked
  by_cases hc : condition
  · rw [if_pos hc, if_pos (h hc)]
  · rw [if_neg hc]
    exact Nat.zero_le _

theorem ceilingRank_mono (policy : DiscountPolicy) {discount discount' : Num} (h : discount ≤ discount') :
    ceilingRank policy discount ≤ ceilingRank policy discount' := by
  have hkept : ∀ {limit : Num}, limit ≤ discount → limit ≤ discount' := fun hlimit => hlimit.trans h
  unfold ceilingRank
  by_cases hreject : policy.rejectPercent ≤ discount
  · rw [if_pos hreject, if_pos (hkept hreject)]
  · rw [if_neg hreject]
    by_cases happroval : policy.approvalPercent ≤ discount
    · rw [if_pos happroval, if_pos (hkept happroval)]
      split <;> omega
    · rw [if_neg happroval]
      by_cases hwarning : policy.warningPercent ≤ discount
      · rw [if_pos hwarning, if_pos (hkept hwarning)]
        split
        · omega
        · split <;> omega
      · rw [if_neg hwarning]
        exact Nat.zero_le _

theorem rank_decideLineDiscount (discount erosion : Num) (policy : DiscountPolicy) :
    (decideLineDiscount discount erosion policy).decision.rank
      = max (ceilingRank policy discount) (asked (policy.maxMarginImpactPercent ≤ erosion) 2) := by
  unfold decideLineDiscount ceilingRank asked
  split_ifs <;> rfl

theorem rank_checkAuthority (authority : RoleAuthority) (discount margin override net : Num) (verdict : Verdict) :
    (checkAuthority authority discount margin override net verdict).decision.rank
      = max (max (max verdict.decision.rank
          (asked (authority.maxDiscountPercent < discount) (exceedRank authority.exceedAction)))
          (asked (margin < authority.minMarginPercent ∧ 0 < net) (floorRank authority.exceedAction)))
          (asked (authority.maxPriceOverridePercent < override) (exceedRank authority.exceedAction)) := by
  have hle := rank_le_three verdict.decision
  have happroval : DiscountDecision.approvalRequired.rank = 2 := rfl
  have hrejected : DiscountDecision.rejected.rank = 3 := rfl
  unfold checkAuthority asked
  cases authority.exceedAction with
  | block => split_ifs <;> simp only [exceedRank, floorRank, hrejected] <;> omega
  | approval => split_ifs <;> simp only [exceedRank, floorRank, rank_worse, happroval] <;> omega
  | allow => split_ifs <;> simp only [exceedRank, floorRank, rank_worse, happroval] <;> omega

/-! ## One line -/

/-- Prices and cost of a line are not negative, and something is sold. -/
structure NonNegative (input : AssessmentInput) (line : QuoteLine) (product : Product) : Prop where
  listPrice : 0 ≤ line.listPrice
  rulePrice : 0 ≤ (resolveUnitPrice product line.quantity input.quantityBreaks (some input.tier)).unitPrice
  cost : 0 ≤ product.cost
  quantity : 0 < line.quantity

def discounted (line : QuoteLine) (discount : Num) : QuoteLine := { line with discountPercent := discount }

/-- The second assessment of a line stems from a discount at least as deep. -/
structure Deeper (first second : LineAssessment) : Prop where
  list : second.listAmount = first.listAmount
  net : second.netAmount ≤ first.netAmount
  erosion : first.marginErosionPercent ≤ second.marginErosionPercent

theorem Deeper.refl (assessed : LineAssessment) : Deeper assessed assessed :=
  ⟨rfl, le_refl _, le_refl _⟩

section Line

variable {input : AssessmentInput} {line : QuoteLine} {product : Product} {discount : Num}

theorem appliedPrice_nonneg (h : NonNegative input line product) :
    0 ≤ appliedPrice input.quantityBreaks input.tier line product := by
  unfold appliedPrice
  dsimp only
  split
  · exact h.listPrice
  · exact h.rulePrice

theorem listAmount_nonneg (h : NonNegative input line product) : 0 ≤ (assessLine input line product).listAmount :=
  round_nonneg (mul_nonneg (appliedPrice_nonneg h) h.quantity.le) 4

theorem costAmount_nonneg (h : NonNegative input line product) : 0 ≤ (assessLine input line product).costAmount :=
  round_nonneg (mul_nonneg h.cost h.quantity.le) 4

theorem netAmount_antitone (h : NonNegative input line product) (hdiscount : line.discountPercent ≤ discount) :
    (assessLine input (discounted line discount) product).netAmount
      ≤ (assessLine input line product).netAmount := by
  have hprice := appliedPrice_nonneg h
  refine round_mono ?_ 4
  refine mul_le_mul_of_nonneg_right (mul_le_mul_of_nonneg_left ?_ hprice) h.quantity.le
  show 1 - discount / 100 ≤ 1 - line.discountPercent / 100
  linarith

theorem deeper_assessLine (h : NonNegative input line product) (hdiscount : line.discountPercent ≤ discount) :
    Deeper (assessLine input line product) (assessLine input (discounted line discount) product) := by
  have hnet := netAmount_antitone h hdiscount
  refine ⟨rfl, hnet, ?_⟩
  show (if (product.listPrice - product.cost) * line.quantity ≤ 0 then _ else _)
    ≤ (if (product.listPrice - product.cost) * line.quantity ≤ 0 then _ else _)
  by_cases hstandard : (product.listPrice - product.cost) * line.quantity ≤ 0
  · rw [if_pos hstandard, if_pos hstandard]
    by_cases hpos : 0 < line.discountPercent
    · have hpos' : 0 < (discounted line discount).discountPercent := hpos.trans_le hdiscount
      rw [if_pos hpos, if_pos hpos']
    · rw [if_neg hpos]
      split <;> norm_num
  · rw [if_neg hstandard, if_neg hstandard]
    refine round_mono (mul_le_mul_of_nonneg_right ?_ (by norm_num)) 2
    refine div_le_div_of_nonneg_right ?_ (not_le.mp hstandard).le
    exact sub_le_sub_left (sub_le_sub_right hnet _) _

/-- The margin of a line that still earns something falls with its net. -/
theorem marginPercent_antitone (h : NonNegative input line product) (hdiscount : line.discountPercent ≤ discount)
    (hpos : 0 < (assessLine input (discounted line discount) product).netAmount) :
    (assessLine input (discounted line discount) product).marginPercent
      ≤ (assessLine input line product).marginPercent := by
  have hnet := netAmount_antitone h hdiscount
  have hcost := costAmount_nonneg h
  have hpos' := hpos.trans_le hnet
  show (if (assessLine input (discounted line discount) product).netAmount = 0 then 0
      else round (((assessLine input (discounted line discount) product).netAmount
        - (assessLine input line product).costAmount)
          / (assessLine input (discounted line discount) product).netAmount * 100) 2)
    ≤ if (assessLine input line product).netAmount = 0 then 0
      else round (((assessLine input line product).netAmount - (assessLine input line product).costAmount)
        / (assessLine input line product).netAmount * 100) 2
  rw [if_neg hpos.ne', if_neg hpos'.ne']
  refine round_mono (mul_le_mul_of_nonneg_right ?_ (by norm_num)) 2
  rw [sub_div, sub_div, div_self hpos.ne', div_self hpos'.ne']
  exact sub_le_sub_left (div_le_div_of_nonneg_left hcost hpos hnet) 1

/-- How far the applied price is from the rule price. -/
def lineOverride (input : AssessmentInput) (line : QuoteLine) (product : Product) : Num :=
  let rulePrice := (resolveUnitPrice product line.quantity input.quantityBreaks (some input.tier)).unitPrice
  if rulePrice = 0 then 0
  else round (|appliedPrice input.quantityBreaks input.tier line product - rulePrice| / rulePrice * 100) 2

/-- What a role asks for on a line. -/
def authorityRank (authority : RoleAuthority) (assessed : LineAssessment) (override : Num) : ℕ :=
  max (max (asked (authority.maxDiscountPercent < assessed.discountPercent) (exceedRank authority.exceedAction))
      (asked (assessed.marginPercent < authority.minMarginPercent ∧ 0 < assessed.netAmount)
        (floorRank authority.exceedAction)))
    (asked (authority.maxPriceOverridePercent < override) (exceedRank authority.exceedAction))

/-- What everything but a role's margin floor asks for on a line. -/
def unflooredRank (input : AssessmentInput) (authority : RoleAuthority) (line : QuoteLine) (product : Product) : ℕ :=
  max
    (max (ceilingRank (selectPolicy input.policies input.tier product.category) line.discountPercent)
      (asked ((selectPolicy input.policies input.tier product.category).maxMarginImpactPercent
        ≤ (assessLine input line product).marginErosionPercent) 2))
    (max (asked (authority.maxDiscountPercent < line.discountPercent) (exceedRank authority.exceedAction))
      (asked (authority.maxPriceOverridePercent < lineOverride input line product)
        (exceedRank authority.exceedAction)))

/-- A role's margin floor was asked of the line, and at the discount it no longer is: nothing of the price is left.
Nothing else asks for as much there as the floor did. -/
def FloorLost (input : AssessmentInput) (line : QuoteLine) (product : Product) (discount : Num) : Prop :=
  ∃ authority, input.authority = some authority ∧
    (assessLine input line product).marginPercent < authority.minMarginPercent ∧
    0 < (assessLine input line product).netAmount ∧
    (assessLine input (discounted line discount) product).netAmount ≤ 0 ∧
    unflooredRank input authority (discounted line discount) product < floorRank authority.exceedAction

/-- A line's decision is the strictest that its policy and the role ask for. -/
theorem rank_assessLine (input : AssessmentInput) (line : QuoteLine) (product : Product) :
    (assessLine input line product).decision.rank
      = max (max
          (ceilingRank (selectPolicy input.policies input.tier product.category) line.discountPercent)
          (asked ((selectPolicy input.policies input.tier product.category).maxMarginImpactPercent
            ≤ (assessLine input line product).marginErosionPercent) 2))
        (input.authority.elim 0 fun authority =>
          authorityRank authority (assessLine input line product) (lineOverride input line product)) := by
  cases hauthority : input.authority with
  | none =>
      have hdecision : (assessLine input line product).decision =
          (decideLineDiscount line.discountPercent (assessLine input line product).marginErosionPercent
            (selectPolicy input.policies input.tier product.category)).decision := by
        unfold assessLine
        rw [hauthority]
      rw [hdecision, rank_decideLineDiscount, Option.elim_none, max_eq_left (Nat.zero_le _)]
  | some authority =>
      have hdecision : (assessLine input line product).decision =
          (checkAuthority authority line.discountPercent (assessLine input line product).marginPercent
            (lineOverride input line product) (assessLine input line product).netAmount
            (decideLineDiscount line.discountPercent (assessLine input line product).marginErosionPercent
              (selectPolicy input.policies input.tier product.category))).decision := by
        unfold assessLine
        rw [hauthority]
        rfl
      rw [hdecision, rank_checkAuthority, rank_decideLineDiscount, Option.elim_some]
      unfold authorityRank
      rw [← max_assoc, ← max_assoc]
      rfl

/-- A line under a margin floor that keeps a net, or on which something asks for as much as the floor, is judged no
more mildly at a deeper discount. -/
theorem floor_kept (h : NonNegative input line product) (hdiscount : line.discountPercent ≤ discount)
    (hfloor : ¬FloorLost input line product discount) {authority : RoleAuthority}
    (hauthority : input.authority = some authority) :
    asked ((assessLine input line product).marginPercent < authority.minMarginPercent ∧
        0 < (assessLine input line product).netAmount) (floorRank authority.exceedAction)
      ≤ max (unflooredRank input authority (discounted line discount) product)
          (asked ((assessLine input (discounted line discount) product).marginPercent < authority.minMarginPercent ∧
            0 < (assessLine input (discounted line discount) product).netAmount)
              (floorRank authority.exceedAction)) := by
  by_cases hasked : (assessLine input line product).marginPercent < authority.minMarginPercent ∧
      0 < (assessLine input line product).netAmount
  · by_cases hpos : 0 < (assessLine input (discounted line discount) product).netAmount
    · have hbelow := (marginPercent_antitone h hdiscount hpos).trans_lt hasked.1
      exact le_max_of_le_right (asked_mono (fun _ => ⟨hbelow, hpos⟩) _)
    · have hother : floorRank authority.exceedAction
          ≤ unflooredRank input authority (discounted line discount) product := by
        by_contra hless
        exact hfloor ⟨authority, hauthority, hasked.1, hasked.2, not_lt.mp hpos, not_le.mp hless⟩
      unfold asked
      rw [if_pos hasked]
      exact le_max_of_le_left hother
  · unfold asked
    rw [if_neg hasked]
    exact Nat.zero_le _

/-- What asks on a line besides the margin floor asks for no less at a deeper discount. -/
theorem unflooredRank_mono (h : NonNegative input line product) (hdiscount : line.discountPercent ≤ discount)
    (authority : RoleAuthority) :
    unflooredRank input authority line product ≤ unflooredRank input authority (discounted line discount) product := by
  have herosion := (deeper_assessLine h hdiscount).erosion
  refine max_le_max (max_le_max ?_ ?_) (max_le_max ?_ (le_refl _))
  · exact ceilingRank_mono _ hdiscount
  · exact asked_mono (fun hasked => hasked.trans herosion) 2
  · exact asked_mono (fun hasked => hasked.trans_le hdiscount) _

/-- Under an authority, a line's decision is what its floor asks for or what everything else does. -/
theorem rank_assessLine_authority {authority : RoleAuthority} (hauthority : input.authority = some authority) :
    (assessLine input line product).decision.rank
      = max (unflooredRank input authority line product)
          (asked ((assessLine input line product).marginPercent < authority.minMarginPercent ∧
            0 < (assessLine input line product).netAmount) (floorRank authority.exceedAction)) := by
  rw [rank_assessLine, hauthority, Option.elim_some]
  unfold authorityRank unflooredRank
  show max _ (max (max (asked (authority.maxDiscountPercent < line.discountPercent) _) _) _) = _
  ac_rfl

/-- A line is judged more mildly at a deeper discount only where it loses a role's margin floor. -/
theorem rank_assessLine_mono (h : NonNegative input line product) (hdiscount : line.discountPercent ≤ discount)
    (hfloor : ¬FloorLost input line product discount) :
    (assessLine input line product).decision.rank
      ≤ (assessLine input (discounted line discount) product).decision.rank := by
  cases hauthority : input.authority with
  | none =>
      have herosion := (deeper_assessLine h hdiscount).erosion
      rw [rank_assessLine, rank_assessLine, hauthority, Option.elim_none, Option.elim_none]
      refine max_le_max (max_le_max ?_ ?_) (le_refl 0)
      · exact ceilingRank_mono _ hdiscount
      · exact asked_mono (fun hasked => hasked.trans herosion) 2
  | some authority =>
      rw [rank_assessLine_authority hauthority, rank_assessLine_authority hauthority]
      refine max_le ?_ (floor_kept h hdiscount hfloor hauthority)
      exact le_max_of_le_left (unflooredRank_mono h hdiscount authority)

end Line

/-! ## The quote -/

/-- The second assessment of a line is at least as strict. -/
def NoMilder (first second : LineAssessment) : Prop := first.decision.rank ≤ second.decision.rank

/-- A line leaves the warnings only for a decision that needs review. -/
theorem countP_warning_le {lines lines' : List LineAssessment} (h : List.Forall₂ NoMilder lines lines')
    (hclear : ∀ line ∈ lines', line.decision.rank ≤ 1) :
    lines.countP (·.decision = .warning) ≤ lines'.countP (·.decision = .warning) := by
  induction h with
  | nil => exact le_refl 0
  | @cons first second lines lines' hfirst _ ih =>
      have htail := ih fun line hline => hclear line (List.mem_cons_of_mem _ hline)
      have hsecond := hclear second List.mem_cons_self
      by_cases hwarning : first.decision = .warning
      · have hkept : second.decision = .warning := by
          have hrank : first.decision.rank ≤ second.decision.rank := hfirst
          rw [hwarning] at hrank
          rcases rank_le_one.mp hsecond with hallowed | hwarned
          · rw [hallowed] at hrank
            exact absurd hrank (by decide)
          · exact hwarned
        rw [List.countP_cons_of_pos (by simpa using hwarning), List.countP_cons_of_pos (by simpa using hkept)]
        omega
      · rw [List.countP_cons_of_neg (by simpa using hwarning), List.countP_cons]
        omega

/-- Lines judged no more mildly make the quote judged no more mildly, as long as a net that was high still asks for
an approval. -/
theorem rank_assessQuote_mono {input input' : AssessmentInput} (hconfig : input'.config = input.config)
    (hlines : List.Forall₂ NoMilder (assessQuote input).lines (assessQuote input').lines)
    (hhigh : (assessQuote input).highValue = true → 2 ≤ (assessQuote input').decision.rank) :
    (assessQuote input).decision.rank ≤ (assessQuote input').decision.rank := by
  obtain ⟨hranks, hcumulative, -⟩ := (rank_assessQuote_le input' _).mp (le_refl _)
  refine (rank_assessQuote_le input _).mpr ⟨?_, ?_, hhigh⟩
  · exact Lists.forall_mem_of_forall₂ hlines (fun hfirst hsecond => le_trans hfirst hsecond) hranks
  · intro hescalated
    by_contra hclear
    -- no line needs review, so no line has left the warnings
    have hcount := countP_warning_le hlines fun line hline => by
      have hrank := hranks line hline
      omega
    have hreached : input.config.cumulativeWarningLimit ≤ ((assessQuote input).warningCount : Num) :=
      of_decide_eq_true hescalated
    have hmore : ((assessQuote input).warningCount : Num) ≤ (assessQuote input').warningCount := by
      exact_mod_cast hcount
    refine hclear (hcumulative (decide_eq_true ?_))
    rw [hconfig]
    exact hreached.trans hmore

/-! ## One line raised -/

section Raised

variable {input : AssessmentInput} {before after : List (QuoteLine × Product)} {line : QuoteLine} {product : Product}
  {discount : Num}

/-- The same quote with one discount changed. -/
def raised (input : AssessmentInput) (before after : List (QuoteLine × Product)) (line : QuoteLine)
    (product : Product) (discount : Num) : AssessmentInput :=
  { input with lines := before ++ (discounted line discount, product) :: after }

/-- Whatever holds between the two assessments of the raised line holds between all lines in turn. -/
theorem forall₂_raised {r : LineAssessment → LineAssessment → Prop} (hrefl : ∀ a, r a a)
    (hlines : input.lines = before ++ (line, product) :: after)
    (h : r (assessLine input line product) (assessLine input (discounted line discount) product)) :
    List.Forall₂ r (assessQuote input).lines (assessQuote (raised input before after line product discount)).lines := by
  have hsame : ∀ entry : QuoteLine × Product,
      assessLine (raised input before after line product discount) entry.1 entry.2
        = assessLine input entry.1 entry.2 := fun _ => rfl
  show List.Forall₂ r (input.lines.map fun entry => assessLine input entry.1 entry.2)
    ((before ++ (discounted line discount, product) :: after).map fun entry =>
      assessLine (raised input before after line product discount) entry.1 entry.2)
  rw [hlines]
  simp only [hsame, List.map_append, List.map_cons]
  exact Lists.forall₂_replaced hrefl h _ _

end Raised

/-! ### An order just over the threshold -/

/-- Premium success plans, at the list price. -/
def planLine : QuoteLine where
  id := 101
  quoteId := 100
  productId := premiumSuccessPlan.id
  quantity := 35
  listPrice := 600
  discountPercent := 0
  unitCost := 120

def gatewayLine : QuoteLine where
  id := 102
  quoteId := 100
  productId := coreGateway.id
  quantity := 1
  listPrice := 4000
  discountPercent := 0
  unitCost := 2200

/-- A seller who may give a quarter off but must earn a tenth. -/
def floorAuthority : RoleAuthority where
  roleKey := "staff"
  maxDiscountPercent := 25
  minMarginPercent := 10
  maxPriceOverridePercent := 5
  canNegotiate := true
  exceedAction := .block

def reviewChain (id : Id) (name : String) (minRiskScore : Num) : ApprovalChain where
  id := id
  name := name
  minRiskScore := minRiskScore
  minBlendedDiscountPercent := 100
  priority := 1
  steps := []

/-- An order of 25 000, which is high for the default configuration, by a seller who must earn a tenth. -/
def largeOrder : AssessmentInput where
  customerTier := .standard
  lines := [(planLine, premiumSuccessPlan), (gatewayLine, coreGateway)]
  policies := []
  chains := [reviewChain 41 "Manager" 0]
  config := defaultGovernance
  actor := some { id := "seller", role := some "staff" }
  quantityBreaks := []
  roleAuthorities := [floorAuthority]
  stock := []
  warehouses := []

theorem largeOrder_nonNegative : ∀ entry ∈ largeOrder.lines, NonNegative largeOrder entry.1 entry.2 := by
  intro entry hentry
  rcases List.mem_cons.mp hentry with rfl | hentry
  · exact ⟨by decide, by decide, by decide, by decide⟩
  · obtain rfl := List.mem_singleton.mp hentry
    exact ⟨by decide, by decide, by decide, by decide⟩

/-- The plans earn four fifths, which is more than the seller's floor. -/
theorem planLine_keeps_floor : ¬FloorLost largeOrder planLine premiumSuccessPlan 2 := by
  rintro ⟨authority, hauthority, hbelow, -⟩
  have hseller : largeOrder.authority = some floorAuthority := by decide +kernel
  rw [← Option.some.inj (hseller.symm.trans hauthority)] at hbelow
  exact absurd hbelow (by decide +kernel)

/-- A giveaway so cheap that a fifth off leaves nothing of its rounded price. -/
def sticker : Product where
  id := 31
  sku := "ACC-STICKER"
  name := "Sticker"
  category := "accessories"
  listPrice := 6 / 100000
  cost := 6 / 100000
  billingType := .oneTime

def stickerLine : QuoteLine where
  id := 101
  quoteId := 100
  productId := sticker.id
  quantity := 1
  listPrice := 6 / 100000
  discountPercent := 1
  unitCost := 6 / 100000

def giveaway : AssessmentInput where
  customerTier := .standard
  lines := [(stickerLine, sticker), (gatewayLine, coreGateway)]
  policies := []
  chains := [reviewChain 41 "Manager" 20, reviewChain 42 "Finance" 50]
  config := defaultGovernance
  actor := some { id := "seller", role := some "staff" }
  quantityBreaks := []
  roleAuthorities := [floorAuthority]
  stock := []
  warehouses := []

theorem giveaway_nonNegative : ∀ entry ∈ giveaway.lines, NonNegative giveaway entry.1 entry.2 := by
  intro entry hentry
  rcases List.mem_cons.mp hentry with rfl | hentry
  · exact ⟨by decide +kernel, by decide +kernel, by decide +kernel, by decide +kernel⟩
  · obtain rfl := List.mem_singleton.mp hentry
    exact ⟨by decide, by decide, by decide, by decide⟩

end DealFlow360
