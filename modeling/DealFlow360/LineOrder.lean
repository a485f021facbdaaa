import DealFlow360.RiskScore
import Mathlib.Data.List.Perm.Basic

/-!
# The order of the lines

A store hands the lines of a quote back in any order. Each line is assessed on
its own, and every figure of the quote is read off the assessed lines by a sum,
a count or the strictest of their decisions, none of which sees the order.

For each figure one lemma says that it is a function of the multiset of
assessed lines: sums and counts by `List.Perm`, the decision by the ranks that
bound it (`decision_perm`), the selected chain by the two figures it is
selected with. `assessQuote_anyOrder` assembles them: for every permutation of
the lines the assessment has the same figures, and each line the assessment it
had.
-/

namespace DealFlow360

/-! ## Sums, counts and the strictest decision -/

theorem rank_injective : Function.Injective DiscountDecision.rank := by
  intro first second h
  cases first <;> cases second <;> first | rfl | exact absurd h (by decide)

theorem sum_perm (f : LineAssessment → Num) {lines lines' : List LineAssessment} (h : lines.Perm lines') :
    (lines.map f).sum = (lines'.map f).sum :=
  (h.map f).sum_eq

/-- Two assessments whose figures are the same. -/
structure QuoteAssessment.SameFigures (first second : QuoteAssessment) : Prop where
  decision : first.decision = second.decision
  listTotal : first.listTotal = second.listTotal
  netTotal : first.netTotal = second.netTotal
  costTotal : first.costTotal = second.costTotal
  discountTotal : first.discountTotal = second.discountTotal
  blendedDiscountPercent : first.blendedDiscountPercent = second.blendedDiscountPercent
  marginPercent : first.marginPercent = second.marginPercent
  riskScore : first.riskScore = second.riskScore
  warningCount : first.warningCount = second.warningCount
  approvalLineCount : first.approvalLineCount = second.approvalLineCount
  rejectedCount : first.rejectedCount = second.rejectedCount
  cumulativeEscalated : first.cumulativeEscalated = second.cumulativeEscalated
  highValue : first.highValue = second.highValue
  mergeRisk : first.mergeRisk = second.mergeRisk
  requiredChainId : first.requiredChainId = second.requiredChainId
  requiredChainName : first.requiredChainName = second.requiredChainName

/-! ## Each figure is read off the assessed lines -/

section Figures

variable (input : AssessmentInput)

theorem listTotal_eq :
    (assessQuote input).listTotal = round ((assessQuote input).lines.map (·.listAmount)).sum := by
  rw [← sumOver_eq]
  rfl

theorem netTotal_eq :
    (assessQuote input).netTotal = round ((assessQuote input).lines.map (·.netAmount)).sum := by
  rw [← sumOver_eq]
  rfl

theorem costTotal_eq :
    (assessQuote input).costTotal = round ((assessQuote input).lines.map (·.costAmount)).sum := by
  rw [← sumOver_eq]
  rfl

theorem discountTotal_eq :
    (assessQuote input).discountTotal
      = round (((assessQuote input).lines.map (·.listAmount)).sum
          - ((assessQuote input).lines.map (·.netAmount)).sum) := by
  rw [← sumOver_eq, ← sumOver_eq]
  rfl

theorem marginPercent_eq :
    (assessQuote input).marginPercent
      = if ((assessQuote input).lines.map (·.netAmount)).sum = 0 then 0
        else round ((((assessQuote input).lines.map (·.netAmount)).sum
            - ((assessQuote input).lines.map (·.costAmount)).sum)
          / ((assessQuote input).lines.map (·.netAmount)).sum * 100) 2 := by
  simp only [← sumOver_eq]
  rfl

theorem highValue_eq :
    (assessQuote input).highValue
      = decide (input.config.highValueNetTotal ≤ ((assessQuote input).lines.map (·.netAmount)).sum) := by
  rw [← sumOver_eq]
  rfl

theorem cumulativeEscalated_eq :
    (assessQuote input).cumulativeEscalated
      = decide (input.config.cumulativeWarningLimit
          ≤ ((assessQuote input).lines.countP (·.decision = .warning) : Num)) := rfl

theorem mergeRisk_eq :
    (assessQuote input).mergeRisk = decide (2 ≤ (assessQuote input).lines.countP (·.approvalScope = .line)) := by
  rw [List.countP_eq_length_filter]
  rfl

/-- The chain a quote is sent along, read off its decision and its two scores. -/
def requiredChain (chains : List ApprovalChain) (assessed : QuoteAssessment) : Option ApprovalChain :=
  if assessed.decision = .approvalRequired ∨ assessed.decision = .rejected then
    selectApprovalChain chains assessed.riskScore assessed.blendedDiscountPercent
  else none

theorem requiredChainId_eq :
    (assessQuote input).requiredChainId = (requiredChain input.chains (assessQuote input)).map (·.id) := rfl

theorem requiredChainName_eq :
    (assessQuote input).requiredChainName = (requiredChain input.chains (assessQuote input)).map (·.name) := rfl

end Figures

/-! ## Reordered lines -/

/-- The same question about other lines. -/
def AssessmentInput.about (input : AssessmentInput) (lines : List (QuoteLine × Product)) : AssessmentInput :=
  { input with lines }

section Reordered

variable {input : AssessmentInput} {lines : List (QuoteLine × Product)}

theorem lines_perm (h : lines.Perm input.lines) :
    (assessQuote (input.about lines)).lines.Perm (assessQuote input).lines :=
  h.map _

theorem cumulativeEscalated_perm (h : lines.Perm input.lines) :
    (assessQuote (input.about lines)).cumulativeEscalated = (assessQuote input).cumulativeEscalated := by
  rw [cumulativeEscalated_eq, cumulativeEscalated_eq, (lines_perm h).countP_eq]
  rfl

theorem highValue_perm (h : lines.Perm input.lines) :
    (assessQuote (input.about lines)).highValue = (assessQuote input).highValue := by
  rw [highValue_eq, highValue_eq, sum_perm _ (lines_perm h)]
  rfl

/-- A decision is known by the ranks that bound it, and those see which lines there are, not where. -/
theorem decision_perm (h : lines.Perm input.lines) :
    (assessQuote (input.about lines)).decision = (assessQuote input).decision := by
  have hlines := lines_perm h
  refine rank_injective (eq_of_forall_ge_iff fun n => ?_)
  rw [rank_assessQuote_le, rank_assessQuote_le, cumulativeEscalated_perm h, highValue_perm h]
  exact and_congr_left' (forall_congr' fun line => imp_congr_left hlines.mem_iff)

theorem sameFigures_perm (h : lines.Perm input.lines) :
    (assessQuote (input.about lines)).SameFigures (assessQuote input) := by
  have hlines := lines_perm h
  have hlist := sum_perm (·.listAmount) hlines
  have hnet := sum_perm (·.netAmount) hlines
  have hcost := sum_perm (·.costAmount) hlines
  have hblended : (assessQuote (input.about lines)).blendedDiscountPercent
      = (assessQuote input).blendedDiscountPercent := by
    rw [blendedDiscountPercent_eq, blendedDiscountPercent_eq, hlist, hnet]
  have hrisk : (assessQuote (input.about lines)).riskScore = (assessQuote input).riskScore := by
    rw [riskScore_eq, riskScore_eq, hblended, hlines.length_eq, sum_perm (·.marginErosionPercent) hlines,
      sum_perm (·.decision.weight) hlines]
  have hchain : requiredChain (input.about lines).chains (assessQuote (input.about lines))
      = requiredChain input.chains (assessQuote input) := by
    unfold requiredChain
    rw [decision_perm h, hrisk, hblended]
    rfl
  exact
    { decision := decision_perm h
      listTotal := by rw [listTotal_eq, listTotal_eq, hlist]
      netTotal := by rw [netTotal_eq, netTotal_eq, hnet]
      costTotal := by rw [costTotal_eq, costTotal_eq, hcost]
      discountTotal := by rw [discountTotal_eq, discountTotal_eq, hlist, hnet]
      blendedDiscountPercent := hblended
      marginPercent := by rw [marginPercent_eq, marginPercent_eq, hnet, hcost]
      riskScore := hrisk
      warningCount := hlines.countP_eq _
      approvalLineCount := hlines.countP_eq _
      rejectedCount := hlines.countP_eq _
      cumulativeEscalated := cumulativeEscalated_perm h
      highValue := highValue_perm h
      mergeRisk := by rw [mergeRisk_eq, mergeRisk_eq, hlines.countP_eq]
      requiredChainId := by rw [requiredChainId_eq, requiredChainId_eq, hchain]
      requiredChainName := by rw [requiredChainName_eq, requiredChainName_eq, hchain] }

end Reordered

/-- Whatever the order of its lines, a quote is assessed the same: every figure is, and each line keeps the
assessment it has in any other place. -/
theorem assessQuote_anyOrder {input : AssessmentInput} {lines : List (QuoteLine × Product)}
    (h : lines.Perm input.lines) :
    (assessQuote (input.about lines)).SameFigures (assessQuote input) ∧
      (assessQuote (input.about lines)).lines = lines.map (fun entry => assessLine input entry.1 entry.2) ∧
      (assessQuote input).lines = input.lines.map (fun entry => assessLine input entry.1 entry.2) :=
  ⟨sameFigures_perm h, rfl, rfl⟩

/-- The giveaway read back with its two lines exchanged. -/
theorem giveaway_anyOrder :
    (assessQuote (giveaway.about giveaway.lines.reverse)).SameFigures (assessQuote giveaway) ∧
      (assessQuote (giveaway.about giveaway.lines.reverse)).lines
        = giveaway.lines.reverse.map (fun entry => assessLine giveaway entry.1 entry.2) ∧
      (assessQuote giveaway).lines = giveaway.lines.map (fun entry => assessLine giveaway entry.1 entry.2) :=
  assessQuote_anyOrder giveaway.lines.reverse_perm

end DealFlow360
