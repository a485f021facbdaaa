import DealFlow360.Errors

/-!
# Billing

One schedule a line: one-time lines are invoiced at once, recurring lines are
scheduled a period ahead and can be cancelled with a refund for the days that
remain. What is due today is added up over the lines apart from the schedules;
`fl` is what each step of it is rounded to.

The engine is a pure function of the lines and the products: a frequency fixes
the length of a period, `buildSchedule` makes one schedule with its amount
rounded to four places, and `cancelSchedule` splits it with both parts rounded
to cents. `hybridCommercials` adds up the one-time and the recurring part for
the presentation; `dueToday` is what the payload of a quote shows.

At `id` for `fl` the sums are exact, which is what the quotes of the service
are compared with; with the rounding of doubles they are what the program
computes.
-/

namespace DealFlow360

def periodDays : BillingFrequency → ℕ
  | .monthly => 30
  | .quarterly => 90
  | .yearly => 365

/-- Milliseconds of a day. -/
def dayMillis : ℕ := 86400000

def addDays (date : Timestamp) (days : ℕ) : Timestamp := date + days * dayMillis

namespace Billing

def lineNetAmount (fl : Rounding) (line : QuoteLine) : Num :=
  let gross := fl (fl (line.listPrice * fl (1 - fl (line.discountPercent / 100))) * line.quantity)
  fl (mathRound (fl (gross * 10 ^ 4)) / 10 ^ 4)

/-- What a customer owes today and month by month. -/
structure Commercials where
  oneTimeNet : Num := 0
  recurringMonthly : Num := 0
  recurringYearly : Num := 0
  deriving DecidableEq, Repr

def Commercials.recurringAnnual (fl : Rounding) (sums : Commercials) : Num :=
  fl (fl (sums.recurringMonthly * 12) + sums.recurringYearly)

def Commercials.dueToday (fl : Rounding) (sums : Commercials) (taxTotal : Num) : Num :=
  fl (fl (fl (sums.oneTimeNet + sums.recurringMonthly) + sums.recurringYearly) + taxTotal)

def hybridCommercials (fl : Rounding) (lines : List QuoteLine) (products : List Product) : Commercials :=
  lines.foldl (fun sums line =>
    let net := lineNetAmount fl line
    match products.find? fun item => item.id = line.productId with
    | none => { sums with oneTimeNet := fl (sums.oneTimeNet + net) }
    | some product =>
        if product.billingType ≠ .recurring then { sums with oneTimeNet := fl (sums.oneTimeNet + net) }
        else
          match product.billingFrequency with
          | some .yearly => { sums with recurringYearly := fl (sums.recurringYearly + net) }
          | some .quarterly => { sums with recurringMonthly := fl (sums.recurringMonthly + fl (net / 3)) }
          | _ => { sums with recurringMonthly := fl (sums.recurringMonthly + net) }) {}

def buildSchedule (fl : Rounding) (id quoteId : Id) (now : Timestamp) (products : List Product)
    (line : QuoteLine) : Except DomainError BillingSchedule :=
  match products.find? fun item => item.id = line.productId with
  | none =>
      .error (invalid "Billing requires a product for every line" [("quoteLineId", .id line.id)])
  | some product =>
      let amount := lineNetAmount fl line
      if product.billingType = .recurring then
        let frequency := product.billingFrequency.getD .monthly
        .ok
          { id, quoteId, quoteLineId := line.id, billingType := .recurring
            frequency := some frequency, amount, status := .scheduled
            nextBillingAt := some (addDays now (periodDays frequency))
            prorationAmount := 0, refundAmount := 0 }
      else
        .ok
          { id, quoteId, quoteLineId := line.id, billingType := .oneTime, amount
            status := .invoiced, prorationAmount := 0, refundAmount := 0 }

/-- A schedule for every line, in order; the first line without a product refuses them all. -/
def buildBillingSchedules (fl : Rounding) (uuid : ℕ → Id) (quoteId : Id) (now : Timestamp)
    (lines : List QuoteLine) (products : List Product) :
    Except DomainError (List BillingSchedule) :=
  lines.zipIdx.mapM fun entry => buildSchedule fl (uuid entry.2) quoteId now products entry.1

def cancelSchedule (now : Timestamp) (schedule : BillingSchedule) :
    Except DomainError BillingSchedule :=
  if schedule.status = .cancelled then
    .error (conflict "Billing schedule is already cancelled")
  else
    match schedule.billingType, schedule.frequency with
    | .recurring, some frequency =>
        let period : Num := periodDays frequency
        let next := schedule.nextBillingAt.getD now
        let periodStart : Num := next - period * dayMillis
        let elapsed := max 0 ((now - periodStart) / dayMillis)
        let remaining := min period (max 0 (period - elapsed))
        let refundAmount := round (schedule.amount * (remaining / period)) 2
        .ok
          { schedule with
            status := .cancelled
            cancelledAt := some now
            refundAmount
            prorationAmount := round (schedule.amount - refundAmount) 2
            nextBillingAt := none }
    | _, _ =>
        .ok
          { schedule with
            status := .cancelled
            cancelledAt := some now
            prorationAmount := 0
            refundAmount := 0 }

end Billing

end DealFlow360
