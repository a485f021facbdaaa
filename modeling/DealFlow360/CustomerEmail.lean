import DealFlow360.Billing
import DealFlow360.Pricing

/-!
# Customer documents

What a customer is mailed about a quote, and the key under which a delivery is
recorded.

The email is made of the quote's lines, its totals and its schedules, in the
texts of the source; the log keeps one entry for each delivery, under a key of
the quote, the kind of mail and a stamp that depends on the kind. Whether the
provider accepts it is given from outside.
-/

namespace DealFlow360

def QuoteEmailEvent.text : QuoteEmailEvent → String
  | prelimInvoice => "prelim_invoice"
  | finalInvoice => "final_invoice"

def customerQuoteEmailKey (quoteId : Id) (eventType : QuoteEmailEvent) (stamp : String) : String :=
  s!"dealflow:quote:{quoteId}:{eventType.text}:{stamp}"

def customerQuoteEmailStamp (aggregate : QuoteAggregate) (eventType : QuoteEmailEvent) : String :=
  match eventType with
  | .finalInvoice =>
      match aggregate.quote.financeLockedAt with
      | some lockedAt => s!"{lockedAt}"
      | none => s!"v{aggregate.quote.version}"
  | .prelimInvoice => "prelim"

def customerApprovalStatus (aggregate : QuoteAggregate) (eventType : QuoteEmailEvent) : String :=
  if eventType = .finalInvoice ∨ aggregate.quote.financeLockedAt.isSome then
    "Finance Manager locked. This is the final commercial bill."
  else if aggregate.quote.status = .approved then
    "Manager approved. Awaiting Finance Manager approval and commercial lock."
  else
    "Manager approved the negotiated quotation. Awaiting Finance Manager approval and commercial lock."

def buildCustomerQuoteDocument (aggregate : QuoteAggregate) (eventType : QuoteEmailEvent) :
    QuoteEmailDocument :=
  let quote := aggregate.quote
  let commercials := Billing.hybridCommercials id aggregate.lines aggregate.products
  { kind := eventType
    customerName := aggregate.customer.name
    quoteNumber := quote.number
    quoteVersion := quote.version
    status := quote.status
    approvalStatus := customerApprovalStatus aggregate eventType
    lines := aggregate.lines.map fun line =>
      let product := aggregate.products.find? fun item => item.id = line.productId
      { sku := (product.map (·.sku)).getD ""
        name := (product.map (·.name)).getD "Product"
        quantity := line.quantity
        unitPrice := line.listPrice
        discountPercent := line.discountPercent
        lineNet := Tax.lineNetAmount line
        billingType := (product.map (·.billingType)).getD .oneTime
        billingFrequency := product.bind (·.billingFrequency) }
    listTotal := quote.listTotal
    discountTotal := quote.discountTotal
    taxTotal := quote.taxTotal
    netTotal := quote.netTotal
    grandTotal := quote.netTotal + quote.taxTotal
    payableAmount := commercials.dueToday id quote.taxTotal
    recurringMonthly := commercials.recurringMonthly
    recurringAnnual := commercials.recurringAnnual id
    financeLocked := quote.financeLockedAt.isSome || eventType = .finalInvoice }

def emailFilename (document : QuoteEmailDocument) : String :=
  let kind := if document.kind = .prelimInvoice then "provisional" else "final-bill"
  s!"{document.quoteNumber}-{kind}-v{document.quoteVersion}.pdf"

end DealFlow360
