import DealFlow360.ClosedQuote
import DealFlow360.LifecycleInvariant

/-!
# What the approvals of a quote were given for

A submit freezes nothing: the approvals it builds speak for the lines the quote
has at that moment, and the lock later takes whatever lines the quote has then.
The record of submits kept here lets the two be compared. They agree in every
run in which nobody accepts a negotiation for another quantity once the quote
is finalized, because that is the one path to the lines that does not ask for
the status.

A `Book` is the world together with what was submitted: for each quote the
lines and the steps of its last submit. Serving a request writes the record and
does nothing else (`world_serveAll`), so every run of the world is a run of
books.

- `Change.isSubmitted` and `QuoteStep.isSubmitted` say what one request does to
  a quote between submit and lock;
- `Covered` is the invariant: a quote in that stretch has the lines and the
  steps of its record;
- `approvals_cover_lock`: in every run that leaves the pipeline alone, a lock
  takes the lines of the submit that built the approvals.

`lock_uncovered` is the run in which an accepted negotiation changes the lines
after the submit.
-/

namespace DealFlow360

open Program

/-- What a submit put up for approval: the lines of the quote and the steps built for them. -/
structure Submission where
  lines : List QuoteLine
  steps : List Id
  deriving DecidableEq

def QuoteAggregate.submission (q : QuoteAggregate) : Submission where
  lines := q.lines
  steps := q.approvals.map (·.id)

/-- The service, with the last submission of every quote on record. -/
structure Book where
  world : World
  submitted : Id → Option Submission

namespace Book

def start (w : World) : Book where
  world := w
  submitted := fun _ => none

/-- Serve a request; a submit that is served goes on record. -/
def serve (options : Options) (book : Book) (request : Request) : Book where
  world := DealFlow360.serve options book.world request
  submitted := fun id =>
    match request.operation with
    | .edit (.submit quoteId _) =>
        if id = quoteId ∧ succeeds options book.world request = true then
          ((DealFlow360.serve options book.world request).store.storedQuote quoteId).map
            QuoteAggregate.submission
        else book.submitted id
    | _ => book.submitted id

abbrev serveAll (options : Options) (book : Book) (requests : List Request) : Book :=
  Machine.run (serve options) book requests

variable {options : Options} {book : Book} {request : Request}

/-- Whether a request is a served submit of a quote. -/
def Submits (options : Options) (w : World) (request : Request) (id : Id) : Prop :=
  (∃ actor, request.operation = .edit (.submit id actor)) ∧ succeeds options w request = true

theorem submitted_of_submits {id : Id} (h : Submits options book.world request id) :
    (book.serve options request).submitted id
      = ((book.serve options request).world.store.storedQuote id).map
          QuoteAggregate.submission := by
  obtain ⟨⟨actor, hop⟩, hok⟩ := h
  simp only [serve, hop, hok, and_true, if_true]

theorem submitted_of_not_submits {id : Id} (h : ¬Submits options book.world request id) :
    (book.serve options request).submitted id = book.submitted id := by
  simp only [serve]
  split
  · rename_i quoteId actor hop
    refine if_neg fun hsubmit => h ?_
    obtain ⟨rfl, hok⟩ := hsubmit
    exact ⟨⟨actor, hop⟩, hok⟩
  · rfl

theorem world_serveAll (options : Options) (requests : List Request) :
    ∀ book : Book, (book.serveAll options requests).world
      = DealFlow360.serveAll options book.world requests := by
  induction requests with
  | nil => intro book; rfl
  | cons request requests ih => intro book; exact ih (book.serve options request)

end Book

/-! ## The stretch between submit and lock -/

/-- Submitted, and neither rejected nor locked since. -/
def isSubmitted (status : QuoteStatus) : Bool := status = .approvalRequired || status = .approved

/-- Closed to commercial changes, and not yet locked. -/
def isInPipeline (status : QuoteStatus) : Bool := status = .finalized || isSubmitted status

theorem canMutateCommercials_of_isInPipeline {status : QuoteStatus}
    (h : isInPipeline status = true) : canMutateCommercials status = false := by
  revert h
  cases status <;> decide

theorem isInPipeline_of_isSubmitted {status : QuoteStatus} (h : isSubmitted status = true) :
    isInPipeline status = true := by
  unfold isInPipeline
  rw [h, Bool.or_true]

theorem settle_ids (call : DecisionCall) (current : QuoteApproval)
    (approvals : List QuoteApproval) :
    (approvals.map (call.settle current)).map (·.id) = approvals.map (·.id) := by
  rw [List.map_map]
  exact List.map_congr_left fun item _ => (settle_keeps call current item).1

/-- A quote between submit and lock was just submitted, or was there before with the same steps. -/
theorem Change.isSubmitted {env : Env} {w w' : World} {a b : QuoteAggregate} {op : QuoteEdit}
    (h : Change env w w' a b op) (hb : DealFlow360.isSubmitted b.quote.status = true) :
    (∃ quoteId actor, op = .submit quoteId actor) ∨
      DealFlow360.isSubmitted a.quote.status = true ∧
        b.approvals.map (·.id) = a.approvals.map (·.id) := by
  have hsame {c : QuoteAggregate} (hbody : b.body = c.body)
      (hstatus : c.quote.status = a.quote.status) (happrovals : c.approvals = a.approvals) :
      DealFlow360.isSubmitted a.quote.status = true ∧
        b.approvals.map (·.id) = a.approvals.map (·.id) := by
    rw [eq_of_body (fun c => c.quote.status) hbody (fun _ => rfl), hstatus] at hb
    rw [eq_of_body (fun c => c.approvals) hbody (fun _ => rfl), happrovals]
    exact ⟨hb, rfl⟩
  cases h with
  | commercial hop hopen hunlocked hlines hbody => exact .inr (hsame hbody rfl rfl)
  | proposed active hop hopen hlines hbody =>
      rw [eq_of_body (fun c => c.quote.status) hbody (fun _ => rfl)] at hb
      cases hb
  | responded active hversion hlines hbody => exact .inr (hsame hbody rfl rfl)
  | @moved op target active frozenAt frozenBy hop hsource hmove htarget hbody =>
      rw [eq_of_body (fun c => c.quote.status) hbody (fun _ => rfl)] at hb
      revert htarget hb
      show DealFlow360.isSubmitted target = true → _
      cases target <;> simp [DealFlow360.isSubmitted]
  | submitted hfinalized hpairs hdecision happrovals hbody => exact .inl ⟨_, _, rfl⟩
  | decided hwaiting hcall happrovals htarget hbody =>
      rw [eq_of_body (fun c => c.approvals) hbody (fun _ => rfl)]
      obtain ⟨current, -, -, -, -, rfl⟩ := applyApprovalDecision_eq_ok.mp happrovals
      refine .inr ⟨?_, settle_ids _ current _⟩
      rw [hwaiting]
      rfl
  | answered decision decidedAt comment decidedVersion active hop hsource hbody =>
      exact .inr (hsame hbody rfl rfl)
  | planned hopen hplanned hstock hconsumed hbody =>
      rw [eq_of_body (fun c => c.quote.status) hbody (fun _ => rfl)] at hb
      revert hb hopen
      show DealFlow360.isSubmitted
        (if a.quote.status = .confirmed then .fulfillment else a.quote.status) = true → _
      cases a.quote.status <;> simp [isOpenForPlanning, DealFlow360.isSubmitted]
  | billed hopen hbody =>
      rw [eq_of_body (fun c => c.quote.status) hbody (fun _ => rfl)] at hb
      cases hb
  | cancelled hbody => exact .inr (hsame hbody rfl rfl)
  | @locked quoteId actor version pairs target saleOrder happroved hunlocked hall hpairs hdecision
      hconsumed hmoves hplanned hbody =>
      have hwon : DealFlow360.isWon target = true :=
        isWon_iff_lockStage.mpr (lockStage_le_of_moves hmoves)
      rw [eq_of_body (fun c => c.quote.status) hbody (fun _ => rfl)] at hb
      revert hb hwon
      show DealFlow360.isSubmitted target = true → _
      cases target <;> simp [DealFlow360.isWon, DealFlow360.isSubmitted]
  | completed hwon hbody =>
      rw [eq_of_body (fun c => c.quote.status) hbody (fun _ => rfl)] at hb
      cases hb

/-- The lock keeps the approvals it was given for. -/
theorem Change.approvals_of_confirm {env : Env} {w w' : World} {a b : QuoteAggregate} {quoteId : Id}
    {actor : Actor} {version : ℕ} (h : Change env w w' a b (.confirm quoteId actor version)) :
    b.approvals = a.approvals := by
  cases h with
  | locked saleOrder happroved hunlocked hall hpairs hdecision hconsumed hmoves hplanned hbody =>
      have happrovals := eq_of_body (fun c => c.approvals) hbody (fun _ => rfl)
      exact happrovals
  | commercial hop => cases hop
  | proposed active hop => cases hop
  | moved active frozenAt frozenBy hop => cases hop
  | answered decision decidedAt comment decidedVersion active hop => cases hop

/-! ## The invariant -/

/-- The request accepts no other quantity for a quote on its way from finalized to locked. -/
def LeavesPipeline (book : Book) (request : Request) : Prop :=
  ∀ q ∈ book.world.store.quotes, isInPipeline q.quote.status = true →
    ∀ op, request.operation = .edit op → ¬AcceptsOtherQuantity book.world.store q op

/-- A submitted quote still has what its last submission put up for approval. -/
def Covered (book : Book) : Prop :=
  ∀ q ∈ book.world.store.quotes, isSubmitted q.quote.status = true →
    book.submitted q.id = some q.submission

variable {options : Options} {book : Book} {request : Request} {q q' : QuoteAggregate}

/-- Where no submit was served, a submitted quote was submitted before, with the same steps. -/
theorem QuoteStep.isSubmitted (h : QuoteStep options book.world request q q')
    (hnot : ¬Book.Submits options book.world request q.id)
    (hq' : DealFlow360.isSubmitted q'.quote.status = true) :
    DealFlow360.isSubmitted q.quote.status = true ∧
      q'.approvals.map (·.id) = q.approvals.map (·.id) := by
  cases h with
  | untouched => exact ⟨hq', rfl⟩
  | assessed hop hq hid hpairs =>
      rw [← hq.quote, ← hq.approvals]
      exact ⟨hq', rfl⟩
  | @edited op a b w₁ pairs hop hload hq hedit hframe hchange hpairs hnext =>
      rw [← hq.quote, ← hq.approvals]
      rcases hchange.isSubmitted hq' with ⟨quoteId, actor, rfl⟩ | hbefore
      · have hid : quoteId = q.id := by
          obtain ⟨q₀, hq₀, hid⟩ := loaded_of_load hload
          rw [← hid]
          exact congrArg Quote.id (hq₀.quote.symm.trans hq.quote)
        subst hid
        exact absurd ⟨⟨actor, hop⟩, succeeds_of_saved hop hload hq hedit hpairs⟩ hnot
      · exact hbefore

theorem Covered.serve (hw : book.world.Indexed) (h : Covered book)
    (hleaves : LeavesPipeline book request) : Covered (book.serve options request) := by
  intro q' hq' hstatus
  by_cases hsubmit : Book.Submits options book.world request q'.id
  · have hlookup : (book.serve options request).world.store.storedQuote q'.id = some q' :=
      Table.lookup_of_mem (hw.serve options request).distinct hq'
    rw [Book.submitted_of_submits hsubmit, hlookup]
    rfl
  · rw [Book.submitted_of_not_submits hsubmit]
    rcases quote_of_serve hq' with ⟨q, hq, hstep⟩ | ⟨hop, hframe, hdraft, hpairs, hnext⟩
    · rw [hstep.id] at hsubmit ⊢
      obtain ⟨hbefore, hsteps⟩ := hstep.isSubmitted hsubmit hstatus
      have hpipeline := isInPipeline_of_isSubmitted hbefore
      have hlines : q'.lines = q.lines :=
        hstep.closed_lines (canMutateCommercials_of_isInPipeline hpipeline) (hleaves q hq hpipeline)
      rw [h q hq hbefore, QuoteAggregate.submission, QuoteAggregate.submission, hlines, hsteps]
    · have hdraftStatus := hdraft.status
      have hbefore : isSubmitted _ = true := hstatus
      rw [show (savedRecord _ _ _ _).quote.status = _ from hdraftStatus] at hbefore
      cases hbefore

theorem covered_of_fresh {w₀ : World} (hfresh : w₀.Fresh) {requests : List Request}
    (hmeets : Machine.Meets (Book.serve options) LeavesPipeline (Book.start w₀) requests) :
    let book := (Book.start w₀).serveAll options requests
    book.world.Indexed ∧ Covered book := by
  have hstep (book : Book) (request : Request) (h : book.world.Indexed ∧ Covered book)
      (hleaves : LeavesPipeline book request) :
      (book.serve options request).world.Indexed ∧ Covered (book.serve options request) :=
    ⟨h.1.serve options request, h.2.serve h.1 hleaves⟩
  refine Machine.invariant_of_meets hstep ⟨hfresh.indexed, ?_⟩ hmeets
  intro q hq
  rw [show (Book.start w₀).world.store.quotes = [] from hfresh.quotes] at hq
  cases hq

/-! ## The lock takes what was submitted -/

/-- In every run whose requests leave the pipeline alone, a lock takes the lines of the submit that
built the quote's approvals; and no such request changes the lines of a quote in the pipeline. -/
theorem approvals_cover_lock (options : Options) (w₀ : World) (hfresh : w₀.Fresh)
    (requests : List Request)
    (hmeets : Machine.Meets (Book.serve options) LeavesPipeline (Book.start w₀) requests) :
    let book := (Book.start w₀).serveAll options requests
    (∀ request, ∀ q ∈ book.world.store.quotes, ∀ q' ∈ (serve options book.world request).store.quotes,
      ∀ actor version, q.quote.status = .approved →
        request.operation = .lockDeal q.id actor version → q'.id = q.id →
        ∃ submission, book.submitted q.id = some submission ∧
          submission.lines = q.lines ∧ submission.lines = q'.lines ∧
          submission.steps = q'.approvals.map (·.id)) ∧
    (∀ request, LeavesPipeline book request → ∀ q ∈ book.world.store.quotes,
      ∀ q' ∈ (serve options book.world request).store.quotes, q'.id = q.id →
        isInPipeline q.quote.status = true → q'.lines = q.lines) := by
  intro book
  obtain ⟨hw, hcovered⟩ := covered_of_fresh hfresh hmeets
  constructor
  · intro request q hq q' hq' actor version hstatus hop hid
    have hstep := step_of_same_id hw hq hq' hid
    have hsubmitted : isSubmitted q.quote.status = true := by
      rw [hstatus]
      rfl
    have hclosed := canMutateCommercials_of_isInPipeline (isInPipeline_of_isSubmitted hsubmitted)
    have hlines : q'.lines = q.lines := by
      refine hstep.closed_lines hclosed fun op hedit => ?_
      obtain rfl := Operation.edit.inj (hop.symm.trans hedit)
      exact not_false
    have hsteps : q'.approvals.map (·.id) = q.approvals.map (·.id) := by
      cases hstep with
      | untouched => rfl
      | assessed hassess => cases hop.symm.trans hassess
      | edited hedited hload hq hedit hframe hchange hpairs hnext =>
          obtain rfl := Operation.edit.inj (hop.symm.trans hedited)
          rw [← hq.approvals]
          exact congrArg (List.map (·.id)) hchange.approvals_of_confirm
    exact ⟨_, hcovered q hq hsubmitted, rfl, hlines.symm, hsteps.symm⟩
  · intro request hleaves q hq q' hq' hid hpipeline
    exact (step_of_same_id hw hq hq' hid).closed_lines
      (canMutateCommercials_of_isInPipeline hpipeline) (hleaves q hq hpipeline)

/-- A run without an accepted negotiation leaves the pipeline alone. -/
theorem leavesPipeline_of_not_responded {request : Request}
    (h : ∀ quoteId negotiationId decision note version actor,
      request.operation ≠
        .edit (.respondToNegotiation quoteId negotiationId decision note version actor))
    (book : Book) : LeavesPipeline book request := by
  intro q hq hpipeline op hop haccepts
  cases op with
  | respondToNegotiation => exact h _ _ _ _ _ _ hop
  | _ => exact haccepts

/-- Two gateways, locked as they were submitted. -/
theorem approvals_cover_lock_gateways :
    let book := (Book.start startWorld).serveAll plainOptions
      (approvedDeal [{ productId := 11, quantity := 2, discountPercent := 0 }])
    ∃ q ∈ book.world.store.quotes, ∃ submission, book.submitted q.id = some submission ∧
      submission.lines = q.lines ∧ submission.lines.map (·.quantity) = [2] := by
  intro book
  have hcovered := approvals_cover_lock plainOptions startWorld startWorld_fresh
    (approvedDeal [{ productId := 11, quantity := 2, discountPercent := 0 }])
    (Machine.meets_of_forall (by simp [approvedDeal, leavesPipeline_of_not_responded]) _)
  have hlocked : ∃ q ∈ book.world.store.quotes, ∃ q' ∈ (serve plainOptions book.world
      { operation := .lockDeal 100 administrator 4 }).store.quotes,
      q.id = 100 ∧ q'.id = 100 ∧ q.quote.status = .approved ∧ q.lines.map (·.quantity) = [2] := by
    decide +kernel
  obtain ⟨q, hq, q', hq', hid, hid', hstatus, hquantities⟩ := hlocked
  obtain ⟨submission, hsubmitted, hlines, -⟩ := hcovered.1
    { operation := .lockDeal 100 administrator 4 } q hq q' hq' administrator 4 hstatus
    (by rw [hid]) (hid'.trans hid.symm)
  exact ⟨q, hq, submission, hsubmitted, hlines, by rw [hlines, hquantities]⟩

/-- A salesperson's request for five gateways is accepted after two were approved. -/
def renegotiatedDeal : List Request :=
  [{ operation := .createQuote 1 none [{ productId := 11, quantity := 2, discountPercent := 0 }]
       administrator },
   { operation := .edit (.createNegotiationRequest 100
       { note := "five after all", actorRole := some "salesperson"
         requestedLines := [{ lineId := some 102, quantity := some 5 }] } none) },
   { operation := .edit (.finalizeQuotation 100 administrator 2) },
   { operation := .edit (.submit 100 administrator) },
   { operation := .edit (.respondToNegotiation 100 103 .accepted "" 4 administrator) }]

/-- Five gateways are locked under the approval of two. -/
theorem lock_uncovered :
    let book := (Book.start startWorld).serveAll plainOptions renegotiatedDeal
    ∃ q ∈ book.world.store.quotes, ∃ q' ∈ (serve plainOptions book.world
        { operation := .lockDeal 100 administrator 5 }).store.quotes,
      q.id = 100 ∧ q'.id = 100 ∧ q.quote.status = .approved ∧ q'.quote.status = .confirmed ∧
        (book.submitted 100).map (·.lines.map (·.quantity)) = some [2] ∧
        q'.lines.map (·.quantity) = [5] ∧
        (book.submitted 100).map (·.lines) ≠ some q'.lines := by
  decide +kernel

end DealFlow360
