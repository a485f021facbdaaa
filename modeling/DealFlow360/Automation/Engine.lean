import DealFlow360.Automation.Rules

/-!
# The automation engine

The store of rules and executions, what an event makes of them, and one attempt
of an execution. A fault says which call fails, an outcome how a handler ends;
both are given from outside. The state keeps, beside the store, the jobs that
were enqueued, the content each execution was created for, and the calls of the
handlers.

`handleEvent` loops over the rules that match, and `runExecution` over the
actions from the recorded index on. Either can stop anywhere: a fault is given
for each call of the store, the queue or a handler, and what was written before
it stays written. Runs are lists of events, attempts and edits of rules.

The state also keeps what the properties speak of and the code does not store,
such as which handlers were called; no function of the engine reads it.
-/

namespace DealFlow360.Automation

/-! ## Store -/

structure AutomationStore where
  rules : List AutomationRuleRecord := []
  executions : List AutomationExecutionRecord := []
  nextRule : Id := 0
  nextExecution : Id := 0

structure CreateAutomationRuleInput where
  enabled : Bool := false
  priority : ℤ := 100
  trigger : String
  conditions : List AutomationCondition := []
  actions : List AutomationAction
  source : AutomationRuleSource := .manual
  allowDestructive : Bool := false

structure UpdateAutomationRuleInput where
  priority : Option ℤ := none
  trigger : Option String := none
  conditions : Option (List AutomationCondition) := none
  actions : Option (List AutomationAction) := none
  allowDestructive : Option Bool := none

structure UpsertActionRunInput where
  executionId : Id
  actionIndex : ℕ
  actionType : String
  status : AutomationExecutionStatus
  attempt : ℕ
  /-- `some none` is `null`, `none` is `undefined`. -/
  errorMessage : Option (Option String) := none

def AutomationRuleRecord.patched (rule : AutomationRuleRecord) (patch : UpdateAutomationRuleInput) :
    AutomationRuleRecord :=
  { rule with
    priority := patch.priority.getD rule.priority
    trigger := patch.trigger.getD rule.trigger
    conditions := patch.conditions.getD rule.conditions
    actions := patch.actions.getD rule.actions
    allowDestructive := patch.allowDestructive.getD rule.allowDestructive
    validatedAt := none }

/-- The record of the action's runs, replaced or added. -/
def AutomationExecutionRecord.withRun (execution : AutomationExecutionRecord) (input : UpsertActionRunInput) :
    AutomationExecutionRecord :=
  let record : AutomationActionRunRecord :=
    match Table.lookup AutomationActionRunRecord.actionIndex input.actionIndex execution.actionRuns with
    | some existing =>
        { existing with
          status := input.status
          attempt := input.attempt
          errorMessage := input.errorMessage.getD existing.errorMessage }
    | none =>
        { actionIndex := input.actionIndex
          actionType := input.actionType
          status := input.status
          attempt := input.attempt
          errorMessage := input.errorMessage.getD none }
  { execution with
    actionRuns := Table.upsert AutomationActionRunRecord.actionIndex record execution.actionRuns }

/-- The run of the action at this index. -/
def AutomationExecutionRecord.run (execution : AutomationExecutionRecord) (index : ℕ) :
    Option AutomationActionRunRecord :=
  Table.lookup AutomationActionRunRecord.actionIndex index execution.actionRuns

def AutomationExecutionRecord.succeededAt (execution : AutomationExecutionRecord) (index : ℕ) : Bool :=
  (execution.run index).any fun run => run.status = .succeeded

namespace AutomationStore

variable (store : AutomationStore)

def getRule (id : Id) : Option AutomationRuleRecord := Table.lookup AutomationRuleRecord.id id store.rules

def getExecution (id : Id) : Option AutomationExecutionRecord :=
  Table.lookup AutomationExecutionRecord.id id store.executions

def createRule (input : CreateAutomationRuleInput) (now : Timestamp) : AutomationStore × AutomationRuleRecord :=
  let record : AutomationRuleRecord :=
    { id := store.nextRule
      enabled := input.enabled
      priority := input.priority
      trigger := input.trigger
      conditions := input.conditions
      actions := input.actions
      source := input.source
      allowDestructive := input.allowDestructive
      validatedAt := none
      createdAt := now }
  ({ store with
      rules := store.rules ++ [record]
      nextRule := store.nextRule + 1 }, record)

def modifyRule (id : Id) (f : AutomationRuleRecord → AutomationRuleRecord) : AutomationStore :=
  { store with rules := store.rules.map fun rule => if rule.id = id then f rule else rule }

def updateRule (id : Id) (patch : UpdateAutomationRuleInput) : AutomationStore :=
  store.modifyRule id (·.patched patch)

/-- `validatedAt` stays as it is where it is not given. -/
def setRuleEnabled (id : Id) (enabled : Bool) (validatedAt : Option (Option Timestamp) := none) :
    AutomationStore :=
  store.modifyRule id fun rule => { rule with enabled, validatedAt := validatedAt.getD rule.validatedAt }

/-- Lower priorities first, then older rules. -/
def listEnabledRulesByTrigger (trigger : String) : List AutomationRuleRecord :=
  sortBy (fun left right =>
    if left.priority ≠ right.priority then ((left.priority - right.priority : ℤ) : Num)
    else (left.createdAt : Num) - right.createdAt)
    (store.rules.filter fun rule => rule.enabled && rule.trigger = trigger)

/-- The execution of the rule for the event. -/
def executionFor (ruleId : Id) (eventId : String) : Option AutomationExecutionRecord :=
  store.executions.find? fun execution => execution.ruleId = ruleId ∧ execution.eventId = eventId

/-- `none` is `'duplicate'`. -/
def createExecution (ruleId : Id) (event : DomainEvent) (maxAttempts : ℕ) (now : Timestamp) :
    AutomationStore × Option AutomationExecutionRecord :=
  match store.executionFor ruleId event.id with
  | some _ => (store, none)
  | none =>
      let record : AutomationExecutionRecord :=
        { id := store.nextExecution
          ruleId
          eventId := event.id
          trigger := event.type
          status := .queued
          attempt := 0
          maxAttempts
          payload := event.payload
          errorMessage := none
          startedAt := none
          finishedAt := none
          createdAt := now
          actionRuns := [] }
      ({ store with
          executions := store.executions ++ [record]
          nextExecution := store.nextExecution + 1 }, some record)

def modifyExecution (id : Id) (f : AutomationExecutionRecord → AutomationExecutionRecord) : AutomationStore :=
  { store with executions := store.executions.map fun execution =>
      if execution.id = id then f execution else execution }

def upsertActionRun (input : UpsertActionRunInput) : AutomationStore :=
  store.modifyExecution input.executionId (·.withRun input)

end AutomationStore

/-! ## State -/

/-- `AUTOMATION.JOB_ATTEMPTS` and `AUTOMATION.JOB_BACKOFF_MS`. -/
def jobAttempts : ℕ := 3

def jobBackoffMs : ℕ := 50

structure QueuedJob where
  jobId : String
  executionId : Id
  actor : Option AutomationActor
  attempts : ℕ
  backoffMs : ℕ
  deriving DecidableEq, Repr

/-- What a built-in handler hands to another service. -/
inductive Effect where
  | email (idempotencyKey : String)
  | aiJob (jobId : String)
  deriving DecidableEq, Repr

/-- A call of the handler of an action. -/
structure HandlerRun where
  executionId : Id
  actionIndex : ℕ
  action : AutomationAction
  /-- What it has handed over, if it came to that. -/
  effect : Option Effect
  succeeded : Bool

/-- The rule that an execution was created for, as it was when it matched. -/
structure MatchedRule where
  executionId : Id
  rule : AutomationRuleRecord

structure AutomationState where
  store : AutomationStore := {}
  jobs : List QueuedJob := []
  matched : List MatchedRule := []
  handled : List HandlerRun := []
  now : Timestamp := 0

structure AutomationEngine where
  registries : AutomationRegistries
  /-- Whether AI analysis goes through the job queue. -/
  queuesAnalysis : Bool
  sanitizeErrorMessage : String → String

/-! ## Events -/

/-- Which calls fail while the rule is handled. -/
structure RuleFaults where
  createExecution : Bool := false
  enqueue : Bool := false
  deriving DecidableEq, Repr

inductive RuleOutcome where
  | queued | skipped
  | threw (error : AutomationError)
  deriving DecidableEq, Repr

structure HandledEvent where
  matched : ℕ
  queued : ℕ
  skipped : ℕ
  deriving DecidableEq, Repr

namespace AutomationEngine

variable (engine : AutomationEngine)

/-- Whether the rule's conditions hold; a condition that cannot be evaluated does not. -/
def matchesEvent (event : DomainEvent) (rule : AutomationRuleRecord) : Bool :=
  match matchesConditions engine.registries event.payload rule.conditions with
  | .ok holds => holds
  | .error _ => false

def executeJobId (executionId : Id) : String := s!"automation.execute:{executionId}"

/-- One round of the loop of `handleEvent`. -/
def handleRule (event : DomainEvent) (faults : RuleFaults) (rule : AutomationRuleRecord)
    (s : AutomationState) : RuleOutcome × AutomationState :=
  if !engine.matchesEvent event rule then (.skipped, s)
  else if faults.createExecution then (.threw (.thrown "createExecution failed"), s)
  else
    match s.store.createExecution rule.id event jobAttempts s.now with
    | (_, none) => (.skipped, s)
    | (store, some created) =>
        let created' := { s with
          store
          matched := s.matched ++ [{ executionId := created.id, rule }] }
        if faults.enqueue then (.threw (.thrown "enqueue failed"), created')
        else
          (.queued, { created' with
            jobs := s.jobs ++
              [{ jobId := executeJobId created.id
                 executionId := created.id
                 actor := event.actor
                 attempts := created.maxAttempts
                 backoffMs := jobBackoffMs }] })

def handleRules (event : DomainEvent) (faults : Id → RuleFaults) :
    List AutomationRuleRecord → HandledEvent → AutomationState →
      Except AutomationError HandledEvent × AutomationState
  | [], counts, s => (.ok counts, s)
  | rule :: rules, counts, s =>
      match engine.handleRule event (faults rule.id) rule s with
      | (.threw error, s') => (.error error, s')
      | (.queued, s') => handleRules event faults rules { counts with queued := counts.queued + 1 } s'
      | (.skipped, s') => handleRules event faults rules { counts with skipped := counts.skipped + 1 } s'

def handleEvent (event : DomainEvent) (faults : Id → RuleFaults) (s : AutomationState) :
    Except AutomationError HandledEvent × AutomationState :=
  let rules := s.store.listEnabledRulesByTrigger event.type
  engine.handleRules event faults rules { matched := rules.length, queued := 0, skipped := 0 } s

end AutomationEngine

/-! ## Attempts -/

/-- How the handler of an action ends: where it fails, before or after it has handed its effect over. -/
inductive ActionOutcome where
  | succeeded
  | failed (handed : Bool) (message : String)
  deriving DecidableEq, Repr

def ActionOutcome.handed : ActionOutcome → Bool
  | succeeded => true
  | failed handed _ => handed

/-! The patches of the execution at the start and at the end of an attempt. -/

namespace AutomationExecutionRecord

variable (execution : AutomationExecutionRecord)

def started (now : Timestamp) : AutomationExecutionRecord :=
  { execution with
    status := .running
    attempt := execution.attempt + 1
    startedAt := some (execution.startedAt.getD now)
    errorMessage := none }

def completed (now : Timestamp) : AutomationExecutionRecord :=
  { execution with status := .succeeded, finishedAt := some now, errorMessage := none }

def failed (now : Timestamp) (message : String) : AutomationExecutionRecord :=
  { execution with status := .failed, finishedAt := some now, errorMessage := some message }

end AutomationExecutionRecord

def AutomationState.modifyExecution (s : AutomationState) (id : Id)
    (f : AutomationExecutionRecord → AutomationExecutionRecord) : AutomationState :=
  { s with store := s.store.modifyExecution id f }

namespace AutomationEngine

variable (engine : AutomationEngine)

/-- What the built-in handlers of emails and analyses hand over. -/
def effectOf (executionId : Id) (action : AutomationAction) : Option Effect :=
  if action.type = "sendEmail" then some (.email s!"{executionId}:sendEmail")
  else if action.type = "queueAIAnalysis" ∧ engine.queuesAnalysis then
    some (.aiJob s!"ai.analyze:{executionId}")
  else none

/-- The checks of `runAction` before the action's run is recorded. -/
def checkAction (rule : AutomationRuleRecord) (actor : Option AutomationActor) (action : AutomationAction)
    (index : ℕ) : Except AutomationError AutomationAction :=
  match engine.registries.action action.type with
  | none =>
      .error (.validation "Unknown automation action"
        [{ path := s!"actions.{index}.type", message := s!"Action \"{action.type}\" is not registered" }])
  | some registered =>
      if registered.destructive && !rule.allowDestructive then
        .error (.validation "Destructive actions require explicit policy"
          [{ path := "allowDestructive", message := s!"Action \"{action.type}\" is destructive" }])
      else if actor.any fun actor => !hasPermission actor registered.requiredPermission then
        .error (.authorization "The event actor is not allowed to run this automation action"
          [registered.requiredPermission] action.type)
      else
        match registered.parse action with
        | .error issues =>
            .error (.validation s!"Invalid configuration for action \"{action.type}\""
              (issues.map (Issue.qualified "job")))
        | .ok parsed => .ok parsed

/-- `runAction`, with the execution as the attempt has read it at its start. -/
def runAction (rule : AutomationRuleRecord) (execution : AutomationExecutionRecord)
    (actor : Option AutomationActor) (action : AutomationAction) (index : ℕ) (outcome : ActionOutcome)
    (s : AutomationState) : Option AutomationError × AutomationState :=
  match engine.checkAction rule actor action index with
  | .error error => (some error, s)
  | .ok _ =>
      let attempt := ((execution.run index).elim 0 (·.attempt)) + 1
      let input : UpsertActionRunInput :=
        { executionId := execution.id, actionIndex := index, actionType := action.type, status := .running
          attempt }
      let started := s.store.upsertActionRun input
      let run : HandlerRun :=
        { executionId := execution.id
          actionIndex := index
          action
          effect := if outcome.handed then engine.effectOf execution.id action else none
          succeeded := outcome = .succeeded }
      match outcome with
      | .succeeded =>
          (none, { s with
            store := started.upsertActionRun { input with status := .succeeded, errorMessage := some none }
            handled := s.handled ++ [run] })
      | .failed _ message =>
          (some (.thrown message), { s with
            store := started.upsertActionRun
              { input with
                status := .failed
                errorMessage := some (some (engine.sanitizeErrorMessage message)) }
            handled := s.handled ++ [run] })

/-- The loop of `runExecution`, from an index on. -/
def runActions (rule : AutomationRuleRecord) (execution : AutomationExecutionRecord)
    (actor : Option AutomationActor) (outcomes : ℕ → ActionOutcome) :
    List AutomationAction → ℕ → AutomationState → Option AutomationError × AutomationState
  | [], _, s => (none, s)
  | action :: actions, index, s =>
      if execution.succeededAt index then runActions rule execution actor outcomes actions (index + 1) s
      else
        match engine.runAction rule execution actor action index (outcomes index) s with
        | (some error, s') => (some error, s')
        | (none, s') => runActions rule execution actor outcomes actions (index + 1) s'

/-- One attempt of the execution. -/
def runExecution (executionId : Id) (actor : Option AutomationActor) (outcomes : ℕ → ActionOutcome)
    (s : AutomationState) : Option AutomationError × AutomationState :=
  match s.store.getExecution executionId with
  | none => (some (.notFound "Automation execution not found"), s)
  | some execution =>
      if execution.status = .succeeded then (none, s)
      else
        match s.store.getRule execution.ruleId with
        | none => (some (.notFound "Automation rule not found"), s)
        | some rule =>
            let started := execution.started s.now
            match engine.runActions rule started actor outcomes rule.actions 0
                (s.modifyExecution executionId fun _ => started) with
            | (none, s') => (none, s'.modifyExecution executionId (·.completed s.now))
            | (some error, s') =>
                (some error, s'.modifyExecution executionId
                  (·.failed s.now (engine.sanitizeErrorMessage error.message)))

end AutomationEngine

/-! ## Runs -/

inductive AutomationInput where
  | createRule (input : CreateAutomationRuleInput)
  | updateRule (id : Id) (patch : UpdateAutomationRuleInput)
  | setRuleEnabled (id : Id) (enabled : Bool) (validatedAt : Option (Option Timestamp))
  | handleEvent (event : DomainEvent) (faults : Id → RuleFaults)
  | runExecution (executionId : Id) (actor : Option AutomationActor) (outcomes : ℕ → ActionOutcome)
  | wait (milliseconds : ℕ)

/-- One call after the other. -/
def AutomationState.step (engine : AutomationEngine) (s : AutomationState) : AutomationInput → AutomationState
  | .createRule input => { s with store := (s.store.createRule input s.now).1 }
  | .updateRule id patch => { s with store := s.store.updateRule id patch }
  | .setRuleEnabled id enabled validatedAt =>
      { s with store := s.store.setRuleEnabled id enabled validatedAt }
  | .handleEvent event faults => (engine.handleEvent event faults s).2
  | .runExecution executionId actor outcomes => (engine.runExecution executionId actor outcomes s).2
  | .wait milliseconds => { s with now := s.now + milliseconds }

end DealFlow360.Automation
