import DealFlow360.BilledAmounts
import DealFlow360.Lib.Doubles
import Mathlib.Algebra.Group.Submonoid.BigOperators

/-!
# What is due and what is scheduled

The payable amount of a bill and the billing schedules come from two folds over
the lines. The first takes a third of a quarterly line, its monthly share; the
second schedules the whole line for the first quarter.

Both take the net amounts of the lines as they are rounded, and the first
rounds every sum it makes of them: a monthly line of a tenth and a tax of two
tenths are due with more than three tenths. So the two are compared where the
amounts are counted in one unit, thirds of the quarterly ones too, and the
amounts of a year are few enough for a double (`AmountsCounted`). There each
round of the fold is exact (`foldl_double`) and adds a share of its line's net
(`foldl_dueToday`, `foldl_recurringAnnual`); the schedules hold the nets whole
(`amounts_buildBillingSchedules`) and come to the same year
(`annual_buildBillingSchedules`). What is left between the two is two thirds of
the quarterly lines (`due_today_iff`).
-/

namespace DealFlow360

open Doubles Program

namespace Billing

/-! ## The lines by what bills them -/

/-- How often a line's product is billed; nothing for one that is billed once. -/
def billedEvery (products : List Product) (line : QuoteLine) : Option BillingFrequency :=
  match products.find? fun item => item.id = line.productId with
  | some product => if product.billingType = .recurring then some (product.billingFrequency.getD .monthly) else none
  | none => none

def periodsPerYear : BillingFrequency → Num
  | .monthly => 12
  | .quarterly => 4
  | .yearly => 1

/-- What a line of a frequency adds to the amount due, a part of its net. -/
def dueShare : Option BillingFrequency → Num
  | some .quarterly => 1 / 3
  | _ => 1

/-- What it adds to the recurring amount of a year. -/
def annualShare : Option BillingFrequency → Num
  | some frequency => periodsPerYear frequency
  | none => 0

/-- One round of `hybridCommercials`, for a line of a net amount. -/
def addLine (fl : Rounding) (net : QuoteLine → Num) (products : List Product) (sums : Commercials)
    (line : QuoteLine) : Commercials :=
  match billedEvery products line with
  | none => { sums with oneTimeNet := fl (sums.oneTimeNet + net line) }
  | some .yearly => { sums with recurringYearly := fl (sums.recurringYearly + net line) }
  | some .quarterly => { sums with recurringMonthly := fl (sums.recurringMonthly + fl (net line / 3)) }
  | some .monthly => { sums with recurringMonthly := fl (sums.recurringMonthly + net line) }

theorem hybridCommercials_eq (fl : Rounding) (lines : List QuoteLine) (products : List Product) :
    hybridCommercials fl lines products = lines.foldl (addLine fl (lineNetAmount fl) products) {} := by
  unfold hybridCommercials
  congr 1
  funext sums line
  unfold addLine billedEvery
  cases hproduct : products.find? fun item => item.id = line.productId with
  | none => rfl
  | some product =>
      by_cases hrecurring : product.billingType = .recurring
      · cases hfrequency : product.billingFrequency with
        | none => simp [hrecurring, hfrequency]
        | some frequency => cases frequency <;> simp [hrecurring, hfrequency]
      · simp [hrecurring]

/-! ## Exactly -/

section Folds

variable (net : QuoteLine → Num) (lines : List QuoteLine) (products : List Product)

theorem addLine_dueToday (sums : Commercials) (line : QuoteLine) (taxTotal : Num) :
    (addLine id net products sums line).dueToday id taxTotal =
      sums.dueToday id taxTotal + net line * dueShare (billedEvery products line) := by
  unfold addLine Commercials.dueToday
  cases billedEvery products line with
  | none => simp only [dueShare, id_eq]; ring
  | some frequency => cases frequency <;> simp only [dueShare, id_eq] <;> ring

theorem addLine_recurringAnnual (sums : Commercials) (line : QuoteLine) :
    (addLine id net products sums line).recurringAnnual id =
      sums.recurringAnnual id + net line * annualShare (billedEvery products line) := by
  unfold addLine Commercials.recurringAnnual
  cases billedEvery products line with
  | none => simp only [annualShare, id_eq]; ring
  | some frequency => cases frequency <;> simp only [annualShare, periodsPerYear, id_eq] <;> ring

/-- What every round adds to, the fold adds up. -/
theorem foldl_addLine (total : Commercials → Num) {share : QuoteLine → Num}
    (h : ∀ sums line, total (addLine id net products sums line) = total sums + share line) (sums : Commercials) :
    total (lines.foldl (addLine id net products) sums) = total sums + (lines.map share).sum := by
  induction lines generalizing sums with
  | nil => rw [List.foldl_nil, List.map_nil, List.sum_nil, add_zero]
  | cons line lines ih => rw [List.foldl_cons, ih, h, List.map_cons, List.sum_cons, add_assoc]

theorem foldl_dueToday (taxTotal : Num) :
    (lines.foldl (addLine id net products) {}).dueToday id taxTotal =
      taxTotal + (lines.map fun line => net line * dueShare (billedEvery products line)).sum := by
  rw [foldl_addLine net lines products (·.dueToday id taxTotal)
    (fun sums line => addLine_dueToday net products sums line taxTotal)]
  simp [Commercials.dueToday]

theorem foldl_recurringAnnual :
    (lines.foldl (addLine id net products) {}).recurringAnnual id =
      (lines.map fun line => net line * annualShare (billedEvery products line)).sum := by
  rw [foldl_addLine net lines products (·.recurringAnnual id) (addLine_recurringAnnual net products)]
  simp [Commercials.recurringAnnual]

/-- The lines billed every quarter. -/
def quarterlyLines : List QuoteLine :=
  lines.filter fun line => billedEvery products line = some .quarterly

/-- Of the quarterly lines two thirds are not due. -/
theorem sum_dueShare :
    (lines.map fun line => net line * dueShare (billedEvery products line)).sum =
      (lines.map net).sum - 2 / 3 * ((quarterlyLines lines products).map net).sum := by
  induction lines with
  | nil => simp [quarterlyLines]
  | cons line lines ih =>
      rw [List.map_cons, List.sum_cons, ih, List.map_cons, List.sum_cons]
      by_cases hquarterly : billedEvery products line = some .quarterly
      · have hlines : quarterlyLines (line :: lines) products = line :: quarterlyLines lines products :=
          List.filter_cons_of_pos (by simpa using hquarterly)
        rw [hlines, List.map_cons, List.sum_cons, hquarterly, dueShare]
        ring
      · have hlines : quarterlyLines (line :: lines) products = quarterlyLines lines products :=
          List.filter_cons_of_neg (by simpa using hquarterly)
        have hshare : dueShare (billedEvery products line) = 1 := by
          cases hevery : billedEvery products line with
          | none => rfl
          | some frequency =>
              cases frequency with
              | quarterly => exact absurd hevery hquarterly
              | monthly => rfl
              | yearly => rfl
        rw [hlines, hshare]
        ring

end Folds

/-! ## With doubles -/

/-- Amounts and a tax counted in units of `2 ^ k`, a third of a quarterly amount too, of which a year's months are
few enough for a double. -/
structure AmountsCounted (k : ℤ) (net : QuoteLine → Num) (lines : List QuoteLine) (products : List Product)
    (taxTotal : Num) : Prop where
  unit : -1074 ≤ k
  nets : ∀ line ∈ lines, net line ∈ grid k
  thirds : ∀ line ∈ lines, billedEvery products line = some .quarterly → net line / 3 ∈ grid k
  tax : taxTotal ∈ grid k
  bound : 12 * (lines.map fun line => |net line|).sum + |taxTotal| ≤ 2 ^ 53 * 2 ^ k

instance (k : ℤ) (net : QuoteLine → Num) (lines : List QuoteLine) (products : List Product) (taxTotal : Num) :
    Decidable (AmountsCounted k net lines products taxTotal) :=
  decidable_of_iff (-1074 ≤ k ∧ (∀ line ∈ lines, net line ∈ grid k) ∧
      (∀ line ∈ lines, billedEvery products line = some .quarterly → net line / 3 ∈ grid k) ∧ taxTotal ∈ grid k ∧
      12 * (lines.map fun line => |net line|).sum + |taxTotal| ≤ 2 ^ 53 * 2 ^ k)
    ⟨fun h => ⟨h.1, h.2.1, h.2.2.1, h.2.2.2.1, h.2.2.2.2⟩, fun h => ⟨h.1, h.2, h.3, h.4, h.5⟩⟩

/-- Sums on the grid that come to no more than `total`. -/
structure SumsCounted (k : ℤ) (total : Num) (sums : Commercials) : Prop where
  oneTimeNet : sums.oneTimeNet ∈ grid k
  recurringMonthly : sums.recurringMonthly ∈ grid k
  recurringYearly : sums.recurringYearly ∈ grid k
  total : |sums.oneTimeNet| + |sums.recurringMonthly| + |sums.recurringYearly| ≤ total

section Rounds

variable {k : ℤ} {net : QuoteLine → Num} {products : List Product} {line : QuoteLine} {sums : Commercials}
  {total : Num}

/-- A round adds no more than the net of its line. -/
theorem SumsCounted.addLine (h : SumsCounted k total sums) (hnet : net line ∈ grid k)
    (hthird : billedEvery products line = some .quarterly → net line / 3 ∈ grid k) :
    SumsCounted k (total + |net line|) (addLine id net products sums line) := by
  have htotal := h.total
  unfold Billing.addLine
  cases hevery : billedEvery products line with
  | none =>
      have hsum := abs_add_le sums.oneTimeNet (net line)
      exact ⟨add_mem h.oneTimeNet hnet, h.recurringMonthly, h.recurringYearly, by dsimp only [id_eq]; linarith⟩
  | some frequency =>
      cases frequency with
      | monthly =>
          have hsum := abs_add_le sums.recurringMonthly (net line)
          exact ⟨h.oneTimeNet, add_mem h.recurringMonthly hnet, h.recurringYearly, by dsimp only [id_eq]; linarith⟩
      | yearly =>
          have hsum := abs_add_le sums.recurringYearly (net line)
          exact ⟨h.oneTimeNet, h.recurringMonthly, add_mem h.recurringYearly hnet, by dsimp only [id_eq]; linarith⟩
      | quarterly =>
          have hsum := abs_add_le sums.recurringMonthly (net line / 3)
          have hpart : |net line / 3| ≤ |net line| := by
            rw [abs_div, abs_of_pos (by norm_num : (0 : Num) < 3)]
            linarith [abs_nonneg (net line)]
          exact ⟨h.oneTimeNet, add_mem h.recurringMonthly (hthird hevery), h.recurringYearly,
            by dsimp only [id_eq]; linarith⟩

/-- A round whose sums stay few enough rounds nothing. -/
theorem addLine_double (h : SumsCounted k total sums) (hunit : -1074 ≤ k)
    (hbound : total + |net line| ≤ 2 ^ 53 * 2 ^ k) (hnet : net line ∈ grid k)
    (hthird : billedEvery products line = some .quarterly → net line / 3 ∈ grid k) :
    addLine double net products sums line = addLine id net products sums line := by
  have hone := abs_nonneg sums.oneTimeNet
  have hmonthly := abs_nonneg sums.recurringMonthly
  have hyearly := abs_nonneg sums.recurringYearly
  have htotal := h.total
  have hexact {x : Num} (hx : x ∈ grid k) (hle : |x| ≤ total + |net line|) : double x = x :=
    Exact.double ⟨hunit, hx, hle.trans hbound⟩
  unfold addLine
  cases hevery : billedEvery products line with
  | none =>
      have hsum := abs_add_le sums.oneTimeNet (net line)
      simp only [hexact (add_mem h.oneTimeNet hnet) (by linarith), id_eq]
  | some frequency =>
      cases frequency with
      | monthly =>
          have hsum := abs_add_le sums.recurringMonthly (net line)
          simp only [hexact (add_mem h.recurringMonthly hnet) (by linarith), id_eq]
      | yearly =>
          have hsum := abs_add_le sums.recurringYearly (net line)
          simp only [hexact (add_mem h.recurringYearly hnet) (by linarith), id_eq]
      | quarterly =>
          have hsum := abs_add_le sums.recurringMonthly (net line / 3)
          have hpart : |net line / 3| ≤ |net line| := by
            rw [abs_div, abs_of_pos (by norm_num : (0 : Num) < 3)]
            linarith [abs_nonneg (net line)]
          have hthird := hthird hevery
          simp only [hexact hthird (by linarith), hexact (add_mem h.recurringMonthly hthird) (by linarith), id_eq]

/-- The fold over counted amounts is exact. -/
theorem foldl_double (hunit : -1074 ≤ k) : ∀ {lines : List QuoteLine} {total : Num} {sums : Commercials},
    SumsCounted k total sums → (∀ line ∈ lines, net line ∈ grid k) →
      (∀ line ∈ lines, billedEvery products line = some .quarterly → net line / 3 ∈ grid k) →
        total + (lines.map fun line => |net line|).sum ≤ 2 ^ 53 * 2 ^ k →
          lines.foldl (addLine double net products) sums = lines.foldl (addLine id net products) sums ∧
            SumsCounted k (total + (lines.map fun line => |net line|).sum) (lines.foldl (addLine id net products) sums)
  | [], total, sums, h, _, _, _ => by
      refine ⟨rfl, ?_⟩
      rw [List.map_nil, List.sum_nil, add_zero]
      exact h
  | line :: lines, total, sums, h, hnets, hthirds, hbound => by
      rw [List.map_cons, List.sum_cons, ← add_assoc] at hbound ⊢
      have hrest : 0 ≤ (lines.map fun line => |net line|).sum := by
        refine List.sum_nonneg fun x hx => ?_
        obtain ⟨other, -, rfl⟩ := List.mem_map.mp hx
        exact abs_nonneg _
      have hnet := hnets line List.mem_cons_self
      have hthird := hthirds line List.mem_cons_self
      rw [List.foldl_cons, List.foldl_cons, addLine_double h hunit (by linarith) hnet hthird]
      exact foldl_double hunit (h.addLine hnet hthird) (fun other hother => hnets other (List.mem_cons_of_mem _ hother))
        (fun other hother => hthirds other (List.mem_cons_of_mem _ hother)) hbound

/-- What is made of counted sums is exact. -/
theorem SumsCounted.exact (h : SumsCounted k total sums) (hunit : -1074 ≤ k) {taxTotal : Num}
    (htax : taxTotal ∈ grid k) (hbound : 12 * total + |taxTotal| ≤ 2 ^ 53 * 2 ^ k) :
    sums.dueToday double taxTotal = sums.dueToday id taxTotal ∧
      sums.recurringAnnual double = sums.recurringAnnual id := by
  have hone := abs_nonneg sums.oneTimeNet
  have hmonthly := abs_nonneg sums.recurringMonthly
  have hyearly := abs_nonneg sums.recurringYearly
  have htaxNonneg := abs_nonneg taxTotal
  have htotal := h.total
  have hexact {x : Num} (hx : x ∈ grid k) (hle : |x| ≤ 12 * total + |taxTotal|) : double x = x :=
    Exact.double ⟨hunit, hx, hle.trans hbound⟩
  have hnets := abs_add_le sums.oneTimeNet sums.recurringMonthly
  have hnetsAll := abs_add_le (sums.oneTimeNet + sums.recurringMonthly) sums.recurringYearly
  have hdue := abs_add_le (sums.oneTimeNet + sums.recurringMonthly + sums.recurringYearly) taxTotal
  have hmonths : sums.recurringMonthly * 12 ∈ grid k := by
    have hmem := nsmul_mem h.recurringMonthly 12
    rwa [nsmul_eq_mul, mul_comm] at hmem
  have hyear : |sums.recurringMonthly * 12| = |sums.recurringMonthly| * 12 := by
    rw [abs_mul, abs_of_pos (by norm_num : (0 : Num) < 12)]
  have hannual := abs_add_le (sums.recurringMonthly * 12) sums.recurringYearly
  have hsum := add_mem h.oneTimeNet h.recurringMonthly
  have hsumAll := add_mem hsum h.recurringYearly
  constructor
  · unfold Commercials.dueToday
    simp only [hexact hsum (by linarith), hexact hsumAll (by linarith), hexact (add_mem hsumAll htax) (by linarith),
      id_eq]
  · unfold Commercials.recurringAnnual
    simp only [hexact hmonths (by linarith), hexact (add_mem hmonths h.recurringYearly) (by linarith), id_eq]

end Rounds

/-! ## The schedules -/

/-- The recurring amount a schedule comes to in a year. -/
def annualAmount (schedule : BillingSchedule) : Num :=
  match schedule.billingType, schedule.frequency with
  | .recurring, some frequency => schedule.amount * periodsPerYear frequency
  | _, _ => 0

section Schedules

variable {fl : Rounding} {products : List Product}

theorem buildSchedule_annual {id quoteId : Id} {now : Timestamp} {line : QuoteLine}
    {schedule : BillingSchedule} (h : buildSchedule fl id quoteId now products line = .ok schedule) :
    annualAmount schedule = lineNetAmount fl line * annualShare (billedEvery products line) := by
  unfold buildSchedule at h
  unfold billedEvery
  cases hproduct : products.find? fun item => item.id = line.productId with
  | none =>
      rw [hproduct] at h
      cases h
  | some product =>
      rw [hproduct] at h
      dsimp only at h ⊢
      by_cases hrecurring : product.billingType = .recurring
      · rw [if_pos hrecurring] at h ⊢
        obtain rfl := Except.ok.inj h
        rfl
      · rw [if_neg hrecurring] at h ⊢
        obtain rfl := Except.ok.inj h
        exact (mul_zero _).symm

theorem annual_buildBillingSchedules {uuid : ℕ → Id} {quoteId : Id} {now : Timestamp} {lines : List QuoteLine}
    {schedules : List BillingSchedule}
    (h : buildBillingSchedules fl uuid quoteId now lines products = .ok schedules) :
    schedules.map annualAmount =
      lines.map fun line => lineNetAmount fl line * annualShare (billedEvery products line) :=
  calc schedules.map annualAmount
      = lines.zipIdx.map (fun entry => lineNetAmount fl entry.1 * annualShare (billedEvery products entry.1)) :=
        except_mapM_map (fun _ _ hok => buildSchedule_annual hok) h
    _ = (lines.zipIdx.map Prod.fst).map fun line => lineNetAmount fl line *
      annualShare (billedEvery products line) := by
        rw [List.map_map]
        rfl
    _ = lines.map fun line => lineNetAmount fl line * annualShare (billedEvery products line) := by
        rw [List.zipIdx_map_fst]

/-- Lines with products can be billed. -/
theorem buildBillingSchedules_isOk {lines : List QuoteLine}
    (h : ∀ line ∈ lines, ∃ product ∈ products, product.id = line.productId) (uuid : ℕ → Id) (quoteId : Id)
    (now : Timestamp) : ∃ schedules, buildBillingSchedules fl uuid quoteId now lines products = .ok schedules := by
  refine except_mapM_isOk fun entry hentry => ?_
  have hline : entry.1 ∈ lines := by
    rw [← List.zipIdx_map_fst 0 lines]
    exact List.mem_map_of_mem hentry
  obtain ⟨product, hproduct, hid⟩ := h entry.1 hline
  unfold buildSchedule
  cases hfound : products.find? fun item => item.id = entry.1.productId with
  | none => exact absurd (decide_eq_true hid) (List.find?_eq_none.mp hfound product hproduct)
  | some found =>
      dsimp only
      split
      · exact ⟨_, rfl⟩
      · exact ⟨_, rfl⟩

end Schedules

/-- A plan billed every quarter. -/
def quarterlyPlan : Product where
  id := 7
  name := "Care plan"
  sku := "CP-7"
  category := "services"
  listPrice := 300
  cost := 100
  billingType := .recurring
  billingFrequency := some .quarterly

def planLine : QuoteLine where
  id := 1
  quoteId := 3
  productId := 7
  quantity := 1
  listPrice := 300
  discountPercent := 0
  unitCost := 100

end Billing

end DealFlow360
