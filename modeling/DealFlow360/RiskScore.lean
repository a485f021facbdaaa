import DealFlow360.Strictness
import Mathlib.Algebra.Order.BigOperators.Group.List

/-!
# Risk grows with the discount

The counters of the risk score move against each other when a line changes its
decision; a sum of one weight a line says the same, and the weights grow with
the decision. The chains that a higher score reaches include those of a lower
one, so the severest of them is at least as severe.

`counts_eq` turns the three counters into one sum of a weight for each line, so
that the score is monotone in the lines' decisions and in the blended discount.
The selection of a chain is an `argmax` of a lexicographic score over the
chains that the figures reach (`selectApprovalChain_eq_argmax`); higher figures
reach more of them.

- `risk_mono`: raising one line's discount never lowers the blended discount,
  and lowers neither risk nor the severity of the chain unless the line loses a
  margin floor that asked for more than anything else does;
- `giveaway_risk_falls`: such a line.
-/

namespace DealFlow360

/-! ## The severest chain -/

/-- What chains are ranked by, before their priority. -/
def ApprovalChain.severity (chain : ApprovalChain) : Num := chain.minRiskScore + chain.minBlendedDiscountPercent

def chainScore (chain : ApprovalChain) : Num ×ₗ Num := toLex (chain.severity, -chain.priority)

theorem compareChains_le_zero (left right : ApprovalChain) :
    compareChains left right ≤ 0 ↔ chainScore right ≤ chainScore left := by
  have hdiff : compareChains left right
      = if right.severity - left.severity ≠ 0 then right.severity - left.severity
        else left.priority - right.priority := rfl
  unfold chainScore
  rw [Prod.Lex.toLex_le_toLex, hdiff]
  dsimp only
  by_cases hsame : right.severity = left.severity
  · rw [if_neg (not_not.mpr (sub_eq_zero.mpr hsame)), sub_nonpos, neg_le_neg_iff]
    exact ⟨fun hle => .inr ⟨hsame, hle⟩, fun hle => hle.elim (fun hlt => absurd hsame hlt.ne) (·.2)⟩
  · rw [if_pos (mt sub_eq_zero.mp hsame), sub_nonpos]
    exact ⟨fun hle => .inl (hle.lt_of_ne hsame), fun hle => hle.elim (·.le) fun heq => absurd heq.1 hsame⟩

/-- The chains two scores reach. -/
def reachedChains (chains : List ApprovalChain) (riskScore blendedDiscountPercent : Num) : List ApprovalChain :=
  chains.filter fun chain =>
    chain.active ≠ some false
      && (chain.minRiskScore ≤ riskScore || chain.minBlendedDiscountPercent ≤ blendedDiscountPercent)

theorem selectApprovalChain_eq_argmax (chains : List ApprovalChain) (riskScore blendedDiscountPercent : Num) :
    selectApprovalChain chains riskScore blendedDiscountPercent
      = (reachedChains chains riskScore blendedDiscountPercent).argmax chainScore := by
  rw [← Top.head?_ranked, ← sortBy_eq_ranked compareChains_le_zero]
  rfl

theorem reachedChains_mono {chains : List ApprovalChain} {risk risk' blended blended' : Num} (hrisk : risk ≤ risk')
    (hblended : blended ≤ blended') {chain : ApprovalChain} (h : chain ∈ reachedChains chains risk blended) :
    chain ∈ reachedChains chains risk' blended' := by
  obtain ⟨hmem, hreached⟩ := List.mem_filter.mp h
  simp only [Bool.and_eq_true, Bool.or_eq_true, decide_eq_true_eq] at hreached
  refine List.mem_filter.mpr ⟨hmem, ?_⟩
  simp only [Bool.and_eq_true, Bool.or_eq_true, decide_eq_true_eq]
  exact ⟨hreached.1, hreached.2.imp (·.trans hrisk) (·.trans hblended)⟩

/-- Higher scores select a chain wherever lower ones do, and none less severe. -/
theorem selectApprovalChain_mono {chains : List ApprovalChain} {risk risk' blended blended' : Num}
    (hrisk : risk ≤ risk') (hblended : blended ≤ blended') {chain : ApprovalChain}
    (h : selectApprovalChain chains risk blended = some chain) :
    ∃ chain', selectApprovalChain chains risk' blended' = some chain' ∧ chain.severity ≤ chain'.severity := by
  rw [selectApprovalChain_eq_argmax] at h ⊢
  have hreached := reachedChains_mono hrisk hblended (List.argmax_mem h)
  cases hselected : (reachedChains chains risk' blended').argmax chainScore with
  | none =>
      rw [List.argmax_eq_none.mp hselected] at hreached
      cases hreached
  | some chain' =>
      refine ⟨chain', rfl, ?_⟩
      have hscore := Prod.Lex.toLex_le_toLex.mp (List.le_of_mem_argmax hreached hselected)
      exact hscore.elim (·.le) (·.1.le)

/-! ## The risk score -/

/-- What a line of each decision adds to the risk score. -/
def DiscountDecision.weight : DiscountDecision → Num
  | allowed => 0
  | warning => 8
  | approvalRequired => 15
  | rejected => 40

theorem weight_mono {first second : DiscountDecision} (h : first.rank ≤ second.rank) :
    first.weight ≤ second.weight := by
  cases first <;> cases second <;> first | decide | exact absurd h (by decide)

/-- The three counters of the risk score are one sum over the lines. -/
theorem counts_eq (lines : List LineAssessment) :
    (lines.countP (·.decision = .warning) : Num) * 8 + (lines.countP (·.decision = .approvalRequired) : Num) * 15
        + (lines.countP (·.decision = .rejected) : Num) * 40
      = (lines.map (·.decision.weight)).sum := by
  induction lines with
  | nil => norm_num
  | cons line lines ih =>
      rw [List.map_cons, List.sum_cons, ← ih, List.countP_cons, List.countP_cons, List.countP_cons]
      cases hdecision : line.decision <;> simp [DiscountDecision.weight] <;> ring

theorem sum_mono {f : LineAssessment → Num} {lines lines' : List LineAssessment}
    (h : List.Forall₂ (fun first second => f first ≤ f second) lines lines') :
    (lines.map f).sum ≤ (lines'.map f).sum := by
  refine List.Forall₂.sum_le_sum ?_
  rw [List.forall₂_map_left_iff, List.forall₂_map_right_iff]
  exact h

theorem clamp_mono {x y : Num} (h : x ≤ y) (low high : Num) : clamp x low high ≤ clamp y low high :=
  min_le_min_left high (max_le_max_left low h)

theorem blendedDiscountPercent_eq (input : AssessmentInput) :
    (assessQuote input).blendedDiscountPercent
      = if ((assessQuote input).lines.map (·.listAmount)).sum = 0 then 0
        else round (round (((assessQuote input).lines.map (·.listAmount)).sum
            - ((assessQuote input).lines.map (·.netAmount)).sum)
          / ((assessQuote input).lines.map (·.listAmount)).sum * 100) 2 := by
  simp only [← sumOver_eq]
  rfl

theorem riskScore_eq (input : AssessmentInput) :
    (assessQuote input).riskScore
      = round (clamp ((assessQuote input).blendedDiscountPercent * (5 / 2)
          + ((assessQuote input).lines.map (·.marginErosionPercent)).sum
            / max (assessQuote input).lines.length 1 * (2 / 5)
          + ((assessQuote input).lines.map (·.decision.weight)).sum) 0 100) 2 := by
  rw [← counts_eq, ← add_assoc, ← add_assoc, ← sumOver_eq]
  rfl

section Lines

variable {input input' : AssessmentInput}

theorem blendedDiscountPercent_mono (hlist : 0 ≤ ((assessQuote input).lines.map (·.listAmount)).sum)
    (h : List.Forall₂ Deeper (assessQuote input).lines (assessQuote input').lines) :
    (assessQuote input).blendedDiscountPercent ≤ (assessQuote input').blendedDiscountPercent := by
  have hsame : ((assessQuote input').lines.map (·.listAmount)).sum
      = ((assessQuote input).lines.map (·.listAmount)).sum := by
    refine le_antisymm ?_ (sum_mono (h.imp fun _ _ hdeeper => hdeeper.list.ge))
    exact sum_mono (h.flip.imp fun _ _ hdeeper => hdeeper.list.le)
  have hnet : ((assessQuote input').lines.map (·.netAmount)).sum
      ≤ ((assessQuote input).lines.map (·.netAmount)).sum :=
    sum_mono (h.flip.imp fun _ _ hdeeper => hdeeper.net)
  rw [blendedDiscountPercent_eq, blendedDiscountPercent_eq, hsame]
  by_cases hzero : ((assessQuote input).lines.map (·.listAmount)).sum = 0
  · rw [if_pos hzero, if_pos hzero]
  · rw [if_neg hzero, if_neg hzero]
    refine round_mono (mul_le_mul_of_nonneg_right ?_ (by norm_num)) 2
    exact div_le_div_of_nonneg_right (round_mono (sub_le_sub_left hnet _) 4) hlist

theorem riskScore_mono (hblended : (assessQuote input).blendedDiscountPercent
      ≤ (assessQuote input').blendedDiscountPercent)
    (h : List.Forall₂ Deeper (assessQuote input).lines (assessQuote input').lines)
    (hdecisions : List.Forall₂ NoMilder (assessQuote input).lines (assessQuote input').lines) :
    (assessQuote input).riskScore ≤ (assessQuote input').riskScore := by
  have herosion := sum_mono (h.imp fun _ _ hdeeper => hdeeper.erosion)
  have hweights := sum_mono (hdecisions.imp fun _ _ hnone => weight_mono hnone)
  have hlength : (assessQuote input).lines.length = (assessQuote input').lines.length := h.length_eq
  have hlines : (0 : Num) ≤ ((max (assessQuote input').lines.length 1 : ℕ) : Num) := Nat.cast_nonneg _
  rw [riskScore_eq, riskScore_eq, hlength]
  refine round_mono (clamp_mono (add_le_add (add_le_add ?_ ?_) hweights) 0 100) 2
  · exact mul_le_mul_of_nonneg_right hblended (by norm_num)
  · exact mul_le_mul_of_nonneg_right (div_le_div_of_nonneg_right herosion hlines) (by norm_num)

theorem listTotal_nonneg (h : ∀ entry ∈ input.lines, NonNegative input entry.1 entry.2) :
    0 ≤ ((assessQuote input).lines.map (·.listAmount)).sum := by
  refine List.sum_nonneg fun amount hamount => ?_
  obtain ⟨assessed, hassessed, rfl⟩ := List.mem_map.mp hamount
  obtain ⟨entry, hentry, rfl⟩ := List.mem_map.mp hassessed
  exact listAmount_nonneg (h entry hentry)

end Lines

/-! ## One line raised -/

/-- Raising the discount of a line never lowers the blended discount. Where the line keeps its margin floor it
lowers no risk score, and the chain selected is at least as severe. -/
theorem risk_mono {input : AssessmentInput} {before after : List (QuoteLine × Product)} {line : QuoteLine}
    {product : Product} {discount : Num} (hlines : input.lines = before ++ (line, product) :: after)
    (h : ∀ entry ∈ input.lines, NonNegative input entry.1 entry.2) (hdiscount : line.discountPercent ≤ discount) :
    (assessQuote input).blendedDiscountPercent
        ≤ (assessQuote (raised input before after line product discount)).blendedDiscountPercent ∧
      (¬FloorLost input line product discount →
        (assessQuote input).riskScore
            ≤ (assessQuote (raised input before after line product discount)).riskScore ∧
          ∀ chain, selectApprovalChain input.chains (assessQuote input).riskScore
              (assessQuote input).blendedDiscountPercent = some chain →
            ∃ chain', selectApprovalChain input.chains
                (assessQuote (raised input before after line product discount)).riskScore
                (assessQuote (raised input before after line product discount)).blendedDiscountPercent
                  = some chain' ∧ chain.severity ≤ chain'.severity) := by
  have hmem : (line, product) ∈ input.lines := by
    rw [hlines]
    exact List.mem_append_right _ List.mem_cons_self
  have hline : NonNegative input line product := h _ hmem
  have hdeeper := forall₂_raised (r := Deeper) Deeper.refl hlines (deeper_assessLine hline hdiscount)
  have hblended := blendedDiscountPercent_mono (listTotal_nonneg h) hdeeper
  refine ⟨hblended, fun hfloor => ?_⟩
  have hdecisions := forall₂_raised (r := NoMilder) (fun a => le_refl a.decision.rank) hlines
    (rank_assessLine_mono hline hdiscount hfloor)
  have hrisk := riskScore_mono hblended hdeeper hdecisions
  exact ⟨hrisk, fun chain hchain => selectApprovalChain_mono hrisk hblended hchain⟩

/-- With two per cent off its plans, the risk of the large order and its chain are no lower. -/
theorem largeOrder_risk_mono :
    (assessQuote largeOrder).riskScore
        ≤ (assessQuote (raised largeOrder [] [(gatewayLine, coreGateway)] planLine premiumSuccessPlan 2)).riskScore ∧
      ∃ chain', selectApprovalChain largeOrder.chains
          (assessQuote (raised largeOrder [] [(gatewayLine, coreGateway)] planLine premiumSuccessPlan 2)).riskScore
          (assessQuote
            (raised largeOrder [] [(gatewayLine, coreGateway)] planLine premiumSuccessPlan 2)).blendedDiscountPercent
            = some chain' ∧ (reviewChain 41 "Manager" 0).severity ≤ chain'.severity := by
  have hmono := @risk_mono largeOrder [] [(gatewayLine, coreGateway)] planLine premiumSuccessPlan 2 rfl
    largeOrder_nonNegative (by decide)
  obtain ⟨hrisk, hchain⟩ := hmono.2 planLine_keeps_floor
  exact ⟨hrisk, hchain _ (by decide +kernel)⟩

/-- A fifth off the sticker instead of a hundredth takes its risk from 60 to 35, and its review from finance to the
manager. -/
theorem giveaway_risk_falls :
    (∀ entry ∈ giveaway.lines, NonNegative giveaway entry.1 entry.2) ∧
    (assessQuote giveaway).riskScore = 60 ∧
    (assessQuote (raised giveaway [] [(gatewayLine, coreGateway)] stickerLine sticker 20)).riskScore = 35 ∧
    (selectApprovalChain giveaway.chains 60 (assessQuote giveaway).blendedDiscountPercent).map (·.severity)
      = some 150 ∧
    (selectApprovalChain giveaway.chains 35
      (assessQuote (raised giveaway [] [(gatewayLine, coreGateway)] stickerLine sticker 20)).blendedDiscountPercent).map
        (·.severity) = some 120 := by
  refine ⟨giveaway_nonNegative, ?_, ?_, ?_, ?_⟩
  · decide +kernel
  · decide +kernel
  · decide +kernel
  · decide +kernel

end DealFlow360
