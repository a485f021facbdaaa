import DealFlow360.Discount

/-!
# Approval chains

A submitted quote gets the first steps of its chain, each pending until an
actor of its role decides it. Steps are decided in order; a rejection closes
the round.

The last section says what a successful decision did: it found a pending step
before which nothing is pending, the actor has its role, and the round after it
is `settle`d. Those facts are all that the invariant of a round and the
invariants of quotes use; the decision function itself is not unfolded again.

- `mem_buildApprovalSteps`: the steps of a new round;
- `settle_keeps`: settling keeps the identity of every step;
- `autoApproveIfAllowed_status`: when a submit skips its steps.
-/

namespace DealFlow360

def approvalPermission : ApprovalRoleKey → String
  | .manager => "dealflow.approvals.manager"
  | .finance => "dealflow.approvals.finance"
  | .final => "dealflow.approvals.final"

/-- `slice(0, limit)` after the sort: the steps of a chain that a round asks for. -/
def chainLevels (chain : ApprovalChain) (maxLevels : Num) : List ApprovalChainStep :=
  (sortBy (fun left right => left.stepOrder - right.stepOrder) chain.steps).take
    ⌊min 3 (max 1 maxLevels)⌋.toNat

/-- One approval for a step of the chain, taking its id from the supply `uuid`. -/
def buildApprovalSteps (uuid : ℕ → Id) (quoteId : Id) (chain : ApprovalChain) (maxLevels : Num) :
    List QuoteApproval :=
  (chainLevels chain maxLevels).mapIdx fun index step =>
    { id := uuid index
      quoteId
      chainId := chain.id
      stepOrder := step.stepOrder
      roleKey := step.roleKey
      label := step.label
      status := .pending }

def autoApproveIfAllowed (uuid : ℕ → Id) (now : Timestamp) (quoteId : Id)
    (assessment : QuoteAssessment) (chain : Option ApprovalChain) (actor : Actor)
    (maxLevels : Num) : Except DomainError (List QuoteApproval) :=
  if assessment.decision = .allowed ∨ assessment.decision = .warning then
    match chain with
    | none => .ok []
    | some chain =>
        .ok ((chainLevels chain maxLevels).mapIdx fun index step =>
          { id := uuid index
            quoteId
            chainId := chain.id
            stepOrder := step.stepOrder
            roleKey := step.roleKey
            label := step.label
            status := .skipped
            actorId := some actor.id
            decidedAt := some now
            decision := some "auto"
            reason := some (s!"Assessment {assessment.decision.text} does not require the " ++
              s!"\"{chain.name}\" chain") })
  else
    match chain with
    | none => .error (conflict "Approval is required but no matching approval chain is configured")
    | some chain => .ok (buildApprovalSteps uuid quoteId chain maxLevels)

def canActOnRole (actor : Actor) (roleKey : ApprovalRoleKey) : Bool :=
  let roles := actorDiscountRoles (some actor)
  actor.permissions.contains (approvalPermission roleKey) || roles.contains "admin"
    || roleKey = .manager && roles.contains "manager"

/-- One call of `applyApprovalDecision`. -/
structure DecisionCall where
  approvalId : Id
  actor : Actor
  decision : ApprovalDecision
  reason : String
  previousValues : ApprovalValues := {}
  newValues : ApprovalValues := {}
  now : Timestamp
  deriving DecidableEq, Repr

/-- The pending step of lowest order below `current`. -/
def blockingStep (approvals : List QuoteApproval) (current : QuoteApproval) :
    Option QuoteApproval :=
  (sortBy (fun left right => left.stepOrder - right.stepOrder)
    (approvals.filter fun item =>
      item.status = .pending && item.stepOrder < current.stepOrder)).head?

/-- The decided step, as it is stored. -/
def DecisionCall.mark (call : DecisionCall) (item : QuoteApproval) : QuoteApproval :=
  { item with
    status := call.decision.status
    actorId := some call.actor.id
    decidedAt := some call.now
    decision := some call.decision.text
    reason := some call.reason
    previousValues := some call.previousValues
    newValues := some call.newValues }

/-- What a decision on `current` makes of a step: a rejection closes the pending ones. -/
def DecisionCall.settle (call : DecisionCall) (current item : QuoteApproval) : QuoteApproval :=
  if item.id ≠ current.id then
    if call.decision = .rejected ∧ item.status = .pending then { item with status := .invalidated }
    else item
  else call.mark item

def applyApprovalDecision (approvals : List QuoteApproval) (call : DecisionCall) :
    Except DomainError (List QuoteApproval) :=
  match approvals.find? fun item => item.id = call.approvalId with
  | none => .error (conflict "Approval step not found")
  | some current =>
      if current.status ≠ .pending then
        .error (conflict s!"Approval step is {current.status.text}")
      else
        match blockingStep approvals current with
        | some blocking =>
            .error (conflict s!"Previous step \"{blocking.label}\" must be decided first")
        | none =>
            if canActOnRole call.actor current.roleKey then
              .ok (approvals.map (call.settle current))
            else
              .error (forbidden s!"This step requires {current.label}"
                [("roleKey", .text current.roleKey.text)])

def invalidateApprovals (approvals : List QuoteApproval) : List QuoteApproval :=
  approvals.map fun item =>
    if item.status = .pending ∨ item.status = .approved ∨ item.status = .skipped then
      { item with status := .invalidated }
    else item

/-- The steps that still count: neither skipped nor invalidated. -/
def requiredApprovals (approvals : List QuoteApproval) : List QuoteApproval :=
  approvals.filter fun item => item.status ≠ .skipped && item.status ≠ .invalidated

def allRequiredApproved (approvals : List QuoteApproval) : Bool :=
  let required := requiredApprovals approvals
  if required.isEmpty then
    approvals.isEmpty || approvals.all (·.status = .skipped)
  else required.all (·.status = .approved)

/-! ## What a successful decision did -/

theorem mem_requiredApprovals {approvals : List QuoteApproval} {item : QuoteApproval} :
    item ∈ requiredApprovals approvals ↔
      item ∈ approvals ∧ item.status ≠ .skipped ∧ item.status ≠ .invalidated := by
  simp [requiredApprovals]

theorem blockingStep_eq_none {approvals : List QuoteApproval} {current : QuoteApproval} :
    blockingStep approvals current = none ↔
      ∀ item ∈ approvals, item.status = .pending → current.stepOrder ≤ item.stepOrder := by
  rw [blockingStep, List.head?_eq_none_iff, List.eq_nil_iff_forall_not_mem]
  simp only [mem_sortBy, List.mem_filter, Bool.and_eq_true, decide_eq_true_eq, not_and, not_lt]

theorem applyApprovalDecision_eq_ok {approvals next : List QuoteApproval} {call : DecisionCall} :
    applyApprovalDecision approvals call = .ok next ↔
      ∃ current, (approvals.find? fun item => item.id = call.approvalId) = some current ∧
        current.status = .pending ∧
        (∀ item ∈ approvals, item.status = .pending → current.stepOrder ≤ item.stepOrder) ∧
        canActOnRole call.actor current.roleKey = true ∧
        next = approvals.map (call.settle current) := by
  unfold applyApprovalDecision
  cases hfind : approvals.find? fun item => item.id = call.approvalId with
  | none => simp
  | some current =>
      simp only [Option.some.injEq, exists_eq_left', ← blockingStep_eq_none]
      by_cases hstatus : current.status = .pending
      · cases hblock : blockingStep approvals current with
        | some blocking => simp [hstatus]
        | none =>
            by_cases hrole : canActOnRole call.actor current.roleKey = true
            · simp [hstatus, hrole, eq_comm]
            · simp [hstatus, hrole]
      · simp [hstatus]

/-- Settling keeps the identity of every step. -/
theorem settle_keeps (call : DecisionCall) (current item : QuoteApproval) :
    (call.settle current item).id = item.id ∧
      (call.settle current item).stepOrder = item.stepOrder ∧
      (call.settle current item).roleKey = item.roleKey := by
  unfold DecisionCall.settle
  split
  · split <;> exact ⟨rfl, rfl, rfl⟩
  · exact ⟨rfl, rfl, rfl⟩

/-- A round starts with the chain's first steps, in order, all pending. -/
theorem mem_buildApprovalSteps {uuid : ℕ → Id} {quoteId : Id} {chain : ApprovalChain}
    {maxLevels : Num} {item : QuoteApproval}
    (h : item ∈ buildApprovalSteps uuid quoteId chain maxLevels) :
    item.status = .pending ∧ ∃ index, item.id = uuid index := by
  obtain ⟨index, hindex, rfl⟩ := List.mem_mapIdx.mp h
  exact ⟨rfl, index, rfl⟩

/-- Only an allowed or warned quote submitted against a chain has skipped steps. -/
theorem autoApproveIfAllowed_status {uuid : ℕ → Id} {now : Timestamp} {quoteId : Id}
    {assessment : QuoteAssessment} {actor : Actor} {maxLevels : Num}
    {chain : Option ApprovalChain} {approvals : List QuoteApproval}
    (hchain : assessment.decision = .allowed ∨ assessment.decision = .warning → chain = none)
    (h : autoApproveIfAllowed uuid now quoteId assessment chain actor maxLevels = .ok approvals) :
    ∀ item ∈ approvals, item.status = .pending := by
  unfold autoApproveIfAllowed at h
  by_cases hdecision : assessment.decision = .allowed ∨ assessment.decision = .warning
  · rw [if_pos hdecision, hchain hdecision] at h
    obtain rfl := Except.ok.inj h
    exact fun item hitem => absurd hitem (List.not_mem_nil)
  · rw [if_neg hdecision] at h
    cases chain with
    | none => cases h
    | some chain =>
        obtain rfl := Except.ok.inj h
        exact fun item hitem => (mem_buildApprovalSteps hitem).1

end DealFlow360
