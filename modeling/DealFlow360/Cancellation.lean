import DealFlow360.Billing
import DealFlow360.Lib.Program
import DealFlow360.Rounding

/-!
# What a cancellation refunds

A cancelled schedule is split by the part of its period that remains. The
refund is rounded to cents and the rest of the amount as well, while the amount
itself has four places: the two make up the amount where it is of whole cents.

`remainingPart` is the share of the period that is left, between 0 and 1, and
it falls with time. The refund is that share of the amount rounded to cents,
and the proration the rest rounded to cents, each from the exact product.

- `splitsExactly_iff`: the rounded parts of an amount make up the rounded
  amount;
- `cancellation_splits_iff`: refund and proration split the amount for every
  built recurring schedule and every time, exactly if the amount is of whole
  cents.

The amounts are those of `buildSchedule`, so the condition is one on the line's
price, quantity and discount.
-/

namespace DealFlow360

namespace Billing

/-- The part of a period that remains at a time, when it ends at `next`. -/
def remainingPart (frequency : BillingFrequency) (next : Num) (now : Timestamp) : Num :=
  let period : Num := periodDays frequency
  let elapsed := max 0 ((now - (next - period * dayMillis)) / dayMillis)
  min period (max 0 (period - elapsed)) / period

theorem periodDays_pos (frequency : BillingFrequency) : (0 : Num) < periodDays frequency := by
  cases frequency <;> norm_num [periodDays]

theorem remainingPart_nonneg (frequency : BillingFrequency) (next : Num) (now : Timestamp) :
    0 ≤ remainingPart frequency next now := by
  have hpos := periodDays_pos frequency
  exact div_nonneg (le_min hpos.le (le_max_left _ _)) hpos.le

theorem remainingPart_le_one (frequency : BillingFrequency) (next : Num) (now : Timestamp) :
    remainingPart frequency next now ≤ 1 := by
  have hpos := periodDays_pos frequency
  exact (div_le_one hpos).mpr (min_le_left _ _)

/-- Later less remains. -/
theorem remainingPart_antitone (frequency : BillingFrequency) (next : Num) {now later : Timestamp}
    (h : now ≤ later) : remainingPart frequency next later ≤ remainingPart frequency next now := by
  have hpos := periodDays_pos frequency
  have hday : (0 : Num) ≤ dayMillis := by positivity
  have hcast : (now : Num) ≤ later := by exact_mod_cast h
  refine div_le_div_of_nonneg_right (min_le_min_left _ (max_le_max_left _ ?_)) hpos.le
  refine sub_le_sub_left (max_le_max_left _ (div_le_div_of_nonneg_right ?_ hday)) _
  exact sub_le_sub_right hcast _

/-- The refund of an amount at a time. -/
def refundAt (frequency : BillingFrequency) (next : Num) (amount : Num) (now : Timestamp) : Num :=
  round (amount * remainingPart frequency next now) 2

theorem refundAt_nonneg {amount : Num} (h : 0 ≤ amount) (frequency : BillingFrequency) (next : Num)
    (now : Timestamp) : 0 ≤ refundAt frequency next amount now :=
  round_nonneg (mul_nonneg h (remainingPart_nonneg _ _ _)) 2

theorem refundAt_le {amount : Num} (h : 0 ≤ amount) (frequency : BillingFrequency) (next : Num) (now : Timestamp) :
    refundAt frequency next amount now ≤ round amount 2 :=
  round_mono (mul_le_of_le_one_right h (remainingPart_le_one _ _ _)) 2

theorem refundAt_antitone {amount : Num} (h : 0 ≤ amount) (frequency : BillingFrequency) (next : Num)
    {now later : Timestamp} (hlater : now ≤ later) :
    refundAt frequency next amount later ≤ refundAt frequency next amount now :=
  round_mono (mul_le_mul_of_nonneg_left (remainingPart_antitone frequency next hlater) h) 2

theorem places_refundAt (frequency : BillingFrequency) (next amount : Num) (now : Timestamp) :
    Places 2 (refundAt frequency next amount now) :=
  places_round _ 2

/-! ## A cancelled schedule -/

/-- A recurring schedule as it is built. -/
structure Recurs (schedule : BillingSchedule) (frequency : BillingFrequency) (next : Timestamp) : Prop where
  billingType : schedule.billingType = .recurring
  frequency : schedule.frequency = some frequency
  status : schedule.status ≠ .cancelled
  next : schedule.nextBillingAt = some next

theorem recurs_of_buildSchedule {fl : Rounding} {id quoteId : Id} {start : Timestamp}
    {products : List Product} {line : QuoteLine}
    {schedule : BillingSchedule} (h : buildSchedule fl id quoteId start products line = .ok schedule)
    (hrecurring : schedule.billingType = .recurring) : ∃ frequency next, Recurs schedule frequency next := by
  unfold buildSchedule at h
  split at h
  · cases h
  · dsimp only at h
    split at h
    · obtain rfl := Except.ok.inj h
      exact ⟨_, _, rfl, rfl, by simp, rfl⟩
    · obtain rfl := Except.ok.inj h
      cases hrecurring

theorem cancelSchedule_of_recurs {schedule : BillingSchedule} {frequency : BillingFrequency} {next : Timestamp}
    (h : Recurs schedule frequency next) (now : Timestamp) :
    ∃ cancelled, cancelSchedule now schedule = .ok cancelled ∧
      cancelled.refundAmount = refundAt frequency next schedule.amount now ∧
      cancelled.prorationAmount = round schedule.amount 2 - refundAt frequency next schedule.amount now := by
  unfold cancelSchedule
  rw [if_neg h.status, h.billingType, h.frequency, h.next]
  refine ⟨_, rfl, rfl, ?_⟩
  exact round_sub_places (places_refundAt frequency next schedule.amount now) _

/-- The split of an amount at a time. -/
structure SplitsExactly (amount refund proration : Num) : Prop where
  sum : refund + proration = amount
  refund_nonneg : 0 ≤ refund
  refund_le : refund ≤ amount
  proration_nonneg : 0 ≤ proration
  proration_le : proration ≤ amount

/-- The rounded parts are a split of the rounded amount. -/
theorem splitsExactly_iff {amount refund : Num} (hnonneg : 0 ≤ refund) (hle : refund ≤ round amount 2) :
    SplitsExactly amount refund (round amount 2 - refund) ↔ Places 2 amount := by
  rw [← round_eq_self_iff]
  constructor
  · intro h
    have hsum := h.sum
    rwa [add_sub_cancel] at hsum
  · intro hround
    rw [hround] at hle ⊢
    exact ⟨by ring, hnonneg, hle, by linarith, by linarith⟩

/-- Whenever a built recurring schedule is cancelled, its refund and its proration split its amount exactly if the
amount is of whole cents, and only then; the refund never grows with time. -/
theorem cancellation_splits_iff {uuid : ℕ → Id} {quoteId : Id} {start : Timestamp} {lines : List QuoteLine}
    {products : List Product} {schedules : List BillingSchedule}
    (h : buildBillingSchedules id uuid quoteId start lines products = .ok schedules) {schedule : BillingSchedule}
    (hmem : schedule ∈ schedules) (hrecurring : schedule.billingType = .recurring) (hamount : 0 ≤ schedule.amount)
    (now : Timestamp) :
    ∃ cancelled, cancelSchedule now schedule = .ok cancelled ∧
      ((SplitsExactly schedule.amount cancelled.refundAmount cancelled.prorationAmount ∧
          ∀ later, now ≤ later → ∃ cancelledLater, cancelSchedule later schedule = .ok cancelledLater ∧
            cancelledLater.refundAmount ≤ cancelled.refundAmount) ↔
        Places 2 schedule.amount) := by
  obtain ⟨entry, -, hbuilt⟩ := Program.except_mem_of_mapM h schedule hmem
  obtain ⟨frequency, next, hrecurs⟩ := recurs_of_buildSchedule hbuilt hrecurring
  obtain ⟨cancelled, hcancelled, hrefund, hproration⟩ := cancelSchedule_of_recurs hrecurs now
  refine ⟨cancelled, hcancelled, ?_⟩
  have hlater : ∀ later, now ≤ later → ∃ cancelledLater, cancelSchedule later schedule = .ok cancelledLater ∧
      cancelledLater.refundAmount ≤ cancelled.refundAmount := by
    intro later hle
    obtain ⟨cancelledLater, hcancelledLater, hrefundLater, -⟩ := cancelSchedule_of_recurs hrecurs later
    refine ⟨cancelledLater, hcancelledLater, ?_⟩
    rw [hrefund, hrefundLater]
    exact refundAt_antitone hamount frequency next hle
  rw [and_iff_left hlater, hproration, hrefund]
  exact splitsExactly_iff (refundAt_nonneg hamount _ _ _) (refundAt_le hamount _ _ _)

/-- A monthly subscription. -/
def subscription : Product where
  id := 7
  name := "Care plan"
  sku := "CP-7"
  category := "services"
  listPrice := 999 / 100
  cost := 4
  billingType := .recurring
  billingFrequency := some .monthly

/-- One of it, at a price and a discount. -/
def subscribed (listPrice discountPercent : Num) : QuoteLine where
  id := 1
  quoteId := 3
  productId := 7
  quantity := 1
  listPrice
  discountPercent
  unitCost := 4

/-- Its schedule, built at the first instant, due at the end of the month. -/
def subscriptionSchedule (amount : Num) : BillingSchedule where
  id := 5
  quoteId := 3
  quoteLineId := 1
  billingType := .recurring
  frequency := some .monthly
  amount
  status := .scheduled
  nextBillingAt := some (30 * dayMillis)
  prorationAmount := 0
  refundAmount := 0

/-- A twelve and a half percent discount leaves 8.7413; half a month later 4.37 is refunded and 4.37 kept. -/
theorem cents_lost :
    buildBillingSchedules id (fun _ => 5) 3 0 [subscribed (999 / 100) (25 / 2)] [subscription] =
        .ok [subscriptionSchedule (87413 / 10000)] ∧
      (cancelSchedule (15 * dayMillis) (subscriptionSchedule (87413 / 10000))).toOption.map
          (fun cancelled => (cancelled.refundAmount, cancelled.prorationAmount)) = some (437 / 100, 437 / 100) ∧
      ¬SplitsExactly (87413 / 10000) (437 / 100) (437 / 100) := by
  refine ⟨by decide +kernel, by decide +kernel, fun h => ?_⟩
  have hsum := h.sum
  norm_num at hsum

/-- Without the discount the month's price is of whole cents. -/
theorem whole_cents_split :
    ∃ cancelled, cancelSchedule (15 * dayMillis) (subscriptionSchedule (999 / 100)) = .ok cancelled ∧
      SplitsExactly (999 / 100) cancelled.refundAmount cancelled.prorationAmount := by
  have hbuilt : buildBillingSchedules id (fun _ => 5) 3 0 [subscribed (999 / 100) 0] [subscription] =
      .ok [subscriptionSchedule (999 / 100)] := by decide +kernel
  obtain ⟨cancelled, hcancelled, hiff⟩ := cancellation_splits_iff hbuilt List.mem_cons_self rfl
    (by norm_num [subscriptionSchedule]) (15 * dayMillis)
  have hplaces : Places 2 (subscriptionSchedule (999 / 100)).amount := ⟨999, by norm_num [subscriptionSchedule]⟩
  exact ⟨cancelled, hcancelled, (hiff.mpr hplaces).1⟩

end Billing

end DealFlow360
