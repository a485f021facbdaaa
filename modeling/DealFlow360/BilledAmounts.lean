import DealFlow360.Outcome
import DealFlow360.Rounding

/-!
# What is billed and what was approved

The assessment and the billing engine compute a line's net by one formula, but
not from one price: the assessment takes a price within half a cent of the rule
price for the rule price, the billing engine bills the price on the line. The
total billed is the net approved exactly when that replacement makes no
difference to the sum.

Both sums are over the lines of the quote that a save stores, so the statement
is about `save` and `buildBillingSchedules` together:

- `netTotal_assessQuote`: the stored net total is the sum of the assessed nets;
- `sum_assessedNet_iff`: away from the rule price the two engines use one
  price, so the sums differ only by the lines near it;
- `billed_net_iff`: the two totals agree if and only if those lines sum alike.

`billed_net_differs` is a price four tenths of a cent below the rule price,
times eight thousand.
-/

namespace DealFlow360

open Program

/-! ## The two sums -/

/-- The amounts `generateBilling` would schedule, added up. -/
def billedTotal (q : QuoteAggregate) : Num := (q.lines.map (Billing.lineNetAmount id)).sum

theorem buildSchedule_amount {fl : Rounding} {id quoteId : Id} {now : Timestamp} {products : List Product}
    {line : QuoteLine} {schedule : BillingSchedule}
    (h : Billing.buildSchedule fl id quoteId now products line = .ok schedule) :
    schedule.amount = Billing.lineNetAmount fl line := by
  unfold Billing.buildSchedule at h
  split at h
  · cases h
  · dsimp only at h
    split at h
    · obtain rfl := Except.ok.inj h
      rfl
    · obtain rfl := Except.ok.inj h
      rfl

theorem amounts_buildBillingSchedules {fl : Rounding} {uuid : ℕ → Id} {quoteId : Id} {now : Timestamp}
    {lines : List QuoteLine} {products : List Product} {schedules : List BillingSchedule}
    (h : Billing.buildBillingSchedules fl uuid quoteId now lines products = .ok schedules) :
    schedules.map (·.amount) = lines.map (Billing.lineNetAmount fl) :=
  calc schedules.map (·.amount)
      = lines.zipIdx.map (fun entry => Billing.lineNetAmount fl entry.1) :=
        except_mapM_map (fun _ _ hok => buildSchedule_amount hok) h
    _ = (lines.zipIdx.map Prod.fst).map (Billing.lineNetAmount fl) := by rw [List.map_map]; rfl
    _ = lines.map (Billing.lineNetAmount fl) := by rw [List.zipIdx_map_fst]

/-- The rule price an assessment holds a line's price against. -/
def ruleFor (store : Store) (tier : CustomerTier) (line : QuoteLine) : Num :=
  match store.getProduct line.productId with
  | some product => rulePriceFor store (persistCustomerTier tier.text) product line.quantity
  | none => line.listPrice

/-- The line's price is within half a cent of the rule price. -/
def NearRule (store : Store) (tier : CustomerTier) (line : QuoteLine) : Prop :=
  |line.listPrice - ruleFor store tier line| ≤ 5 / 1000

instance (store : Store) (tier : CustomerTier) (line : QuoteLine) :
    Decidable (NearRule store tier line) :=
  inferInstanceAs (Decidable (_ ≤ _))

/-- The net a line has in its assessment. -/
def assessedNet (store : Store) (tier : CustomerTier) (line : QuoteLine) : Num :=
  netAmount (if NearRule store tier line then ruleFor store tier line else line.listPrice) line

/-- The lines priced within half a cent of their rule price come to the same net at the price they
have and at the rule price. -/
def NearLinesAgree (store : Store) (tier : CustomerTier) (lines : List QuoteLine) : Prop :=
  let near := lines.filter fun line => NearRule store tier line
  (near.map fun line => netAmount line.listPrice line).sum
    = (near.map fun line => netAmount (ruleFor store tier line) line).sum

instance (store : Store) (tier : CustomerTier) (lines : List QuoteLine) :
    Decidable (NearLinesAgree store tier lines) :=
  inferInstanceAs (Decidable (_ = _))

/-- Lines that are priced by the rule or clearly off it agree. -/
theorem nearLinesAgree_of_exact {store : Store} {tier : CustomerTier} {lines : List QuoteLine}
    (h : ∀ line ∈ lines, NearRule store tier line → line.listPrice = ruleFor store tier line) :
    NearLinesAgree store tier lines := by
  unfold NearLinesAgree
  dsimp only
  congr 1
  refine List.map_congr_left fun line hline => ?_
  obtain ⟨hmem, hnear⟩ := List.mem_filter.mp hline
  rw [← h line hmem (of_decide_eq_true hnear)]

/-- Away from the rule price both engines use the price of the line. -/
theorem sum_assessedNet_iff (store : Store) (tier : CustomerTier) (lines : List QuoteLine) :
    (lines.map (Billing.lineNetAmount id)).sum = (lines.map (assessedNet store tier)).sum ↔
      NearLinesAgree store tier lines := by
  have hdifference : (lines.map (Billing.lineNetAmount id)).sum - (lines.map (assessedNet store tier)).sum
      = ((lines.filter fun line => NearRule store tier line).map fun line =>
          netAmount line.listPrice line).sum
        - ((lines.filter fun line => NearRule store tier line).map fun line =>
            netAmount (ruleFor store tier line) line).sum := by
    induction lines with
    | nil => rfl
    | cons line lines ih =>
        have hbilled : Billing.lineNetAmount id line = netAmount line.listPrice line := rfl
        rw [List.map_cons, List.sum_cons, List.map_cons, List.sum_cons, hbilled]
        by_cases hnear : NearRule store tier line
        · rw [List.filter_cons, if_pos (decide_eq_true hnear), List.map_cons, List.sum_cons,
            List.map_cons, List.sum_cons, assessedNet, if_pos hnear]
          linarith
        · rw [List.filter_cons, if_neg (by simpa using hnear), assessedNet, if_neg hnear]
          linarith
  unfold NearLinesAgree
  dsimp only
  rw [← sub_eq_zero, hdifference, sub_eq_zero]

theorem appliedPrice_eq {store : Store} {tier : CustomerTier} {line : QuoteLine} {product : Product}
    (h : store.getProduct line.productId = some product) :
    appliedPrice store.quantityBreaks (persistCustomerTier tier.text) line product
      = if NearRule store tier line then ruleFor store tier line else line.listPrice := by
  have hrule : ruleFor store tier line = (resolveUnitPrice product line.quantity store.quantityBreaks
      (some (persistCustomerTier tier.text))).unitPrice := by
    unfold ruleFor
    rw [h]
    rfl
  unfold appliedPrice
  dsimp only
  by_cases hnear : NearRule store tier line
  · have hle := hnear
    rw [NearRule, hrule] at hle
    rw [if_pos hnear, if_neg (not_lt.mpr hle), hrule]
  · have hlt := hnear
    rw [NearRule, hrule, not_le] at hlt
    rw [if_neg hnear, if_pos hlt]

/-- The net total of an assessment is the sum of its lines' nets. -/
theorem netTotal_assessQuote {options : Options} {store : Store} {tier : CustomerTier}
    {lines : List QuoteLine} {pairs : List (QuoteLine × Product)}
    (h : pairProducts store lines = .ok pairs) :
    (assessQuote (assessmentInput options store tier pairs)).netTotal
      = (lines.map (assessedNet store tier)).sum := by
  have hnets : pairs.map (fun entry => netAmount (appliedPrice store.quantityBreaks
      (persistCustomerTier tier.text) entry.1 entry.2) entry.1) = lines.map (assessedNet store tier) := by
    rw [← pairProducts_fst h, List.map_map]
    refine List.map_congr_left fun entry hentry => ?_
    rw [appliedPrice_eq (pairProducts_snd h entry hentry)]
    rfl
  have htotal := congrArg Totals.netTotal (totals_assessQuote (assessmentInput options store tier pairs))
  refine htotal.trans ?_
  show round ((pairs.map (fun entry => netAmount (appliedPrice store.quantityBreaks
    (persistCustomerTier tier.text) entry.1 entry.2) entry.1)).sum) = _
  rw [hnets]
  refine round_of_places (places_sum fun net hnet => ?_)
  obtain ⟨line, -, rfl⟩ := List.mem_map.mp hnet
  exact places_round _ 4

/-- For every quote that a save stores: the amounts billing would schedule add up to the net total that
was stored, if and only if the lines priced within half a cent of their rule price come to the same net
at either price. -/
theorem billed_net_iff (env : Env) (b answer : QuoteAggregate) (w w' : World)
    (hsave : saveAssessed env b w = .ok answer w') :
    ∃ record, w'.store.storedQuote b.id = some record ∧ record.lines = b.lines ∧
      (∀ uuid now products schedules,
        Billing.buildBillingSchedules id uuid record.id now record.lines products = .ok schedules →
          (schedules.map (·.amount)).sum = billedTotal record) ∧
      (billedTotal record = record.quote.netTotal ↔
        NearLinesAgree w.store b.customer.tier b.lines) := by
  obtain ⟨pairs, hpairs, rfl, -⟩ := saveAssessed_eq_ok.mp hsave
  have hstored : (w.withQuote (savedRecord env w.store b pairs)).store.storedQuote b.id
      = some (savedRecord env w.store b pairs) := by
    show Table.lookup QuoteAggregate.id (savedRecord env w.store b pairs).id
      (Table.upsert QuoteAggregate.id (savedRecord env w.store b pairs) w.store.quotes) = _
    exact Table.lookup_upsert_self _ _
  refine ⟨savedRecord env w.store b pairs, hstored, rfl, ?_, ?_⟩
  · intro uuid now products schedules hschedules
    rw [amounts_buildBillingSchedules hschedules]
    rfl
  · have hnet : (savedRecord env w.store b pairs).quote.netTotal
        = (b.lines.map (assessedNet w.store b.customer.tier)).sum := netTotal_assessQuote hpairs
    rw [hnet]
    exact sum_assessedNet_iff w.store b.customer.tier b.lines

/-- A draft for two gateways at their list price. -/
def gatewayDraft : QuoteAggregate :=
  withLines (newDraft { options := plainOptions, outside := {} } 100 "DF-00001" 101
      { id := 1, name := "Northwind Retail", email := "demo.user@example.com", tier := .standard } "ada")
    [newLine startWorld.store 102 100 coreGateway { productId := 11, quantity := 2, discountPercent := 5 }]

theorem billed_net_gateways :
    ∃ record, (after (saveAssessed { options := plainOptions, outside := {} } gatewayDraft)
        startWorld).store.storedQuote 100 = some record ∧ record.lines.length = 1 ∧
      billedTotal record = record.quote.netTotal := by
  have hsaves : ∃ answer w', saveAssessed { options := plainOptions, outside := {} } gatewayDraft
      startWorld = .ok answer w' := by
    have hpairs : pairProducts startWorld.store gatewayDraft.lines
        = .ok (gatewayDraft.lines.map fun line => (line, coreGateway)) := by decide
    exact ⟨_, _, saveAssessed_eq_ok.mpr ⟨_, hpairs, rfl, rfl⟩⟩
  obtain ⟨answer, w', hsave⟩ := hsaves
  obtain ⟨record, hstored, hlines, -, hiff⟩ := billed_net_iff _ gatewayDraft answer startWorld w' hsave
  rw [after_of_ok hsave]
  exact ⟨record, hstored, by rw [hlines]; rfl, hiff.mpr (by decide +kernel)⟩

/-- An administrator states a unit price four tenths of a cent below the rule price: eight thousand are
approved, and less is billed. -/
theorem billed_net_differs :
    let w := serveAll plainOptions startWorld
      [{ operation := .createQuote 1 none [{ productId := 11, quantity := 2, discountPercent := 0 }]
           administrator },
       { operation := .edit (.updateLine 100 102 { unitPrice := some (3999996 / 1000) } 1
           administrator) }]
    ∃ q ∈ w.store.quotes, q.quote.netTotal = 8000 ∧ billedTotal q = 7999992 / 1000 := by
  decide +kernel

end DealFlow360
