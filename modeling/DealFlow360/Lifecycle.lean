import DealFlow360.Errors
import Mathlib.Logic.Relation

/-!
# Quote lifecycle

The transition table and the guards the service asks before it touches a quote.
`Moves` is the reflexive and transitive closure of the table: what any number
of asserted transitions can do.

`assertTransition` refuses a move that is not in the table and lets a quote
stay where it is; the guards are predicates on the status alone. `lockStage`
numbers the statuses by how far the lock has brought a quote, and no move of
the table leads to an earlier one. The invariant of the lifecycle and every
change of a quote are stated with these.
-/

namespace DealFlow360

open QuoteStatus

/-- `TRANSITIONS`: the statuses a quote may be moved to. -/
def transitions : QuoteStatus → List QuoteStatus
  | draft => [customerNegotiation, managerReview, approvalRequired, approved, rejected]
  | approvalRequired => [approved, rejected, draft]
  | approved => [confirmed, approvalRequired, rejected]
  | customerNegotiation => [managerReview, finalized, approvalRequired, rejected, draft]
  | managerReview => [customerNegotiation, finalized, rejected]
  | finalized => [approvalRequired, approved, rejected]
  | confirmed => [fulfillment, billing, completed]
  | fulfillment => [billing, completed]
  | billing => [completed]
  | completed => []
  | rejected => [draft]

def assertTransition (source target : QuoteStatus) : Except DomainError Unit :=
  if source = target then .ok ()
  else if target ∈ transitions source then .ok ()
  else .error (conflict s!"Cannot move quote from {source.text} to {target.text}"
    [("from", .text source.text), ("to", .text target.text)])

def canMutateCommercials (status : QuoteStatus) : Bool :=
  status = draft || status = rejected || status = customerNegotiation || status = managerReview

def isOpenForPlanning (status : QuoteStatus) : Bool :=
  status = confirmed || status = fulfillment

def isOpenForBilling (status : QuoteStatus) : Bool :=
  isOpenForPlanning status || status = billing

def isCommerciallyLocked (status : QuoteStatus) (financeLockedAt : Option Timestamp) : Bool :=
  financeLockedAt.isSome || status = confirmed || status = fulfillment || status = billing
    || status = completed

def canDeleteQuote (status : QuoteStatus) : Bool :=
  status = draft || status = rejected

def canVoidQuote (status : QuoteStatus) : Bool :=
  status = customerNegotiation || status = managerReview || status = approvalRequired
    || status = approved || status = finalized

/-- The statuses that count as a won purchase, and that only a locked quote carries. -/
def isWon (status : QuoteStatus) : Bool :=
  status = confirmed || status = fulfillment || status = billing || status = completed

/-! ## Paths of the transition table -/

/-- One move of the table. -/
def Transition (source target : QuoteStatus) : Prop := target ∈ transitions source

instance (source target : QuoteStatus) : Decidable (Transition source target) :=
  inferInstanceAs (Decidable (target ∈ transitions source))

/-- Some path of the table, possibly empty, leads from `source` to `target`. -/
abbrev Moves : QuoteStatus → QuoteStatus → Prop := Relation.ReflTransGen Transition

theorem assertTransition_eq_ok {source target : QuoteStatus} {u : Unit} :
    assertTransition source target = .ok u ↔ source = target ∨ Transition source target := by
  unfold assertTransition Transition
  by_cases heq : source = target
  · simp [heq]
  · by_cases hmem : target ∈ transitions source <;> simp [heq, hmem]

/-- Position of a status in the order confirmed, fulfillment, billing, completed; open statuses
come before all of them. -/
def lockStage : QuoteStatus → ℕ
  | confirmed => 1
  | fulfillment => 2
  | billing => 3
  | completed => 4
  | _ => 0

theorem isWon_iff_lockStage {status : QuoteStatus} : isWon status = true ↔ 0 < lockStage status := by
  cases status <;> decide

/-- No move of the table leads to an earlier stage. -/
theorem lockStage_le_of_transition {source target : QuoteStatus} (h : Transition source target) :
    lockStage source ≤ lockStage target := by
  revert h
  cases source <;> cases target <;> decide

theorem lockStage_le_of_moves {source target : QuoteStatus} (h : Moves source target) :
    lockStage source ≤ lockStage target := by
  induction h with
  | refl => exact le_rfl
  | tail _ hstep ih => exact ih.trans (lockStage_le_of_transition hstep)

end DealFlow360
