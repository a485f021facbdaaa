import DealFlow360.Automation.Engine

/-!
# Calls on rules

The calls that create, change, validate and switch rules, the handling of
events and the attempts, with every call of the store a step of its own. Beside
the store, the state keeps which rules' contents were rewritten, what the calls
that validate or enable have read and accepted, and the actions whose handlers
were called.

Each call is a list of steps on the store with what it has read in between, so
two calls can interleave at every one of them; the engine's handling of an
event and an attempt are steps as well. The checks are those of
`validateAutomationRule`, in its order, with the issues of the source.

The module about the human gate proves what every interleaving keeps.
-/

namespace DealFlow360.Automation

/-! ## Validation -/

/-- `AUTOMATION_OPERATORS`. -/
def builtinOperators : List String :=
  ["equals", "notEquals", "greaterThan", "lessThan", "greaterOrEqual", "lessOrEqual", "contains", "in", "exists"]

def odooWriteMethods : List String := ["create", "write", "unlink"]

def isOdooWriteAction (action : AutomationAction) : Bool :=
  action.type = "callOdoo" &&
    match action.config.lookup "method" with
    | some (.str method) => method ∈ odooWriteMethods
    | _ => false

def isConfirmed (action : AutomationAction) : Bool :=
  match action.config.lookup "confirmed" with
  | some (.bool true) => true
  | _ => false

structure RuleValidationInput where
  trigger : String
  conditions : List AutomationCondition
  actions : List AutomationAction
  allowDestructive : Bool
  source : AutomationRuleSource

def AutomationRuleRecord.validationInput (rule : AutomationRuleRecord) : RuleValidationInput :=
  { trigger := rule.trigger
    conditions := rule.conditions
    actions := rule.actions
    allowDestructive := rule.allowDestructive
    source := rule.source }

section Validation

variable (registries : AutomationRegistries)

def validateCondition (index : ℕ) (condition : AutomationCondition) : Except AutomationError Unit :=
  if (registries.operators.lookup condition.operator).isNone then
    .error (.validation "Unknown condition operator"
      [{ path := s!"conditions.{index}.operator"
         message := s!"Operator \"{condition.operator}\" is not registered" }])
  else if condition.operator ∉ builtinOperators then
    .error (.validation "Invalid condition operator"
      [{ path := "body"
         message := "Invalid enum value. Expected " ++
           " | ".intercalate (builtinOperators.map fun name => "'" ++ name ++ "'") ++
           ", received '" ++ condition.operator ++ "'"
         code := "invalid_enum_value" }])
  else if condition.operator ≠ "exists" ∧ condition.value.isNone then
    .error (.validation "Condition value is required"
      [{ path := s!"conditions.{index}.value", message := "Value is required for this operator" }])
  else if condition.operator = "in" ∧ !isArray condition.value then
    .error (.validation "Condition value must be an array"
      [{ path := s!"conditions.{index}.value", message := "The in operator requires an array value" }])
  else .ok ()
where
  isArray : Option Json → Bool
    | some (.array _) => true
    | _ => false

/-- The checks of one action; the answer is whether it is destructive. -/
def validateAction (actor : Option AutomationActor) (index : ℕ) (action : AutomationAction) :
    Except AutomationError Bool :=
  match registries.action action.type with
  | none =>
      .error (.validation "Unknown automation action"
        [{ path := s!"actions.{index}.type", message := s!"Action \"{action.type}\" is not registered" }])
  | some registered =>
      match registered.parse action with
      | .error issues =>
          .error (.validation s!"Invalid configuration for action \"{action.type}\""
            (issues.map (Issue.qualified "body")))
      | .ok _ =>
          if isOdooWriteAction action && !isConfirmed action then
            .error (.validation "Odoo writes require explicit confirmation on the action"
              [{ path := s!"actions.{index}.confirmed"
                 message := "Set confirmed to true on callOdoo create/write/unlink actions" }])
          else if actor.any fun actor => !hasPermission actor registered.requiredPermission then
            .error (.authorization "You are not allowed to configure this automation action"
              [registered.requiredPermission] action.type)
          else .ok (registered.destructive || isOdooWriteAction action)

def validateConditions (conditions : List AutomationCondition) : Except AutomationError Unit :=
  conditions.zipIdx.foldlM (fun _ (condition, index) => validateCondition registries index condition) ()

/-- Whether one of the actions is destructive. -/
def validateActions (actor : Option AutomationActor) (actions : List AutomationAction) :
    Except AutomationError Bool :=
  actions.zipIdx.foldlM (fun destructive (action, index) =>
    (validateAction registries actor index action).map (destructive || ·)) false

def validateAutomationRule (actor : Option AutomationActor) (input : RuleValidationInput) :
    Except AutomationError Unit :=
  let requireAction : Except AutomationError Unit :=
    if input.actions.isEmpty then
      .error (.validation "Automation rules require at least one action"
        [{ path := "actions", message := "At least one action is required" }])
    else .ok ()
  if input.trigger ∉ registries.triggers then
    .error (.validation "Unknown automation trigger"
      [{ path := "trigger", message := s!"Trigger \"{input.trigger}\" is not registered" }])
  else do
    if input.conditions.isEmpty then requireAction
    validateConditions registries input.conditions
    requireAction
    let requiresDestructive ← validateActions registries actor input.actions
    if requiresDestructive && !input.allowDestructive then
      .error (.validation "Destructive actions require explicit policy"
        [{ path := "allowDestructive"
           message := "Set allowDestructive to true to include destructive actions such as updateRecord, " ++
             "webhook, or Odoo writes" }])
    else .ok ()

end Validation

def assertCanEnable (rule : AutomationRuleRecord) : Except AutomationError Unit :=
  if rule.source = .ai ∧ rule.validatedAt.isNone then
    .error (.validation "AI-generated automation rules must be validated before activation"
      [{ path := "source", message := "Call validate before enable for AI-generated rules" }])
  else .ok ()

/-! ## Calls -/

/-- A rule as a call has read it, with how often its content had been rewritten by then. -/
structure ReadRule where
  rule : AutomationRuleRecord
  version : ℕ

/-- Where a call stands before its next step. -/
inductive Stage where
  | createRule (input : CreateAutomationRuleInput) (actor : Option AutomationActor)
  | updateRule (id : Id) (patch : UpdateAutomationRuleInput) (actor : Option AutomationActor)
  /-- The update has read the rule and will write. -/
  | updating (current : AutomationRuleRecord) (patch : UpdateAutomationRuleInput) (actor : Option AutomationActor)
  /-- The update has written a rule that was enabled when it was read, and will disable it. -/
  | disabling (id : Id)
  | validateRule (id : Id) (actor : Option AutomationActor)
  | validating (read : ReadRule)
  | enableRule (id : Id) (actor : Option AutomationActor)
  | enabling (read : ReadRule)
  | disableRule (id : Id)
  | handleEvent (event : DomainEvent)
  /-- The rules that are still to be handled, as they were listed. -/
  | handling (event : DomainEvent) (rules : List AutomationRuleRecord)
  | runExecution (executionId : Id) (actor : Option AutomationActor)
  /-- The attempt has read the execution and will read its rule. -/
  | readingRule (execution : AutomationExecutionRecord) (actor : Option AutomationActor)
  | starting (execution : AutomationExecutionRecord) (read : ReadRule) (actor : Option AutomationActor)
  /-- The attempt has come to the action at the index. -/
  | attempting (execution : AutomationExecutionRecord) (read : ReadRule) (actor : Option AutomationActor)
      (index : ℕ)
  /-- The handler of the action at the index has been called. -/
  | running (execution : AutomationExecutionRecord) (read : ReadRule) (actor : Option AutomationActor)
      (index : ℕ) (action : AutomationAction)
  | failing (execution : AutomationExecutionRecord) (error : AutomationError)
  | returned
  | threw (error : AutomationError)

structure RuleCall where
  id : Id
  stage : Stage

/-- An action whose handler was called, with the rule as the attempt had read it. -/
structure ExecutedAction where
  read : ReadRule
  action : AutomationAction

structure GateState where
  system : AutomationState := {}
  calls : List RuleCall := []
  /-- The rules whose content was rewritten, in this order. -/
  rewritten : List Id := []
  /-- What the calls that validate or enable have read and accepted. -/
  checked : List ReadRule := []
  executed : List ExecutedAction := []

namespace GateState

def version (s : GateState) (id : Id) : ℕ := s.rewritten.count id

def read (s : GateState) (rule : AutomationRuleRecord) : ReadRule := { rule, version := s.version rule.id }

def setStore (s : GateState) (store : AutomationStore) : GateState :=
  { s with system := { s.system with store } }

abbrev store (s : GateState) : AutomationStore := s.system.store

abbrev now (s : GateState) : Timestamp := s.system.now

end GateState

def ruleNotFound : AutomationError := .notFound "Automation rule not found"

/-- The rule as an update would leave it, as far as it is validated. -/
def patchedInput (current : AutomationRuleRecord) (patch : UpdateAutomationRuleInput) : RuleValidationInput :=
  { trigger := patch.trigger.getD current.trigger
    conditions := patch.conditions.getD current.conditions
    actions := patch.actions.getD current.actions
    allowDestructive := patch.allowDestructive.getD current.allowDestructive
    source := current.source }

def actionRun (execution : AutomationExecutionRecord) (action : AutomationAction) (index : ℕ)
    (status : AutomationExecutionStatus) (errorMessage : Option (Option String)) : UpsertActionRunInput :=
  { executionId := execution.id
    actionIndex := index
    actionType := action.type
    status
    attempt := ((execution.run index).elim 0 (·.attempt)) + 1
    errorMessage }

/-- The next step of a call, and where it stands then. -/
def Stage.advance (engine : AutomationEngine) (outcome : ActionOutcome) (s : GateState) :
    Stage → GateState × Stage
  | .createRule input actor =>
      let enabledRequested := input.source ≠ .ai ∧ input.enabled
      match validateAutomationRule engine.registries actor
          { trigger := input.trigger
            conditions := input.conditions
            actions := input.actions
            allowDestructive := input.allowDestructive
            source := input.source } with
      | .error error => (s, .threw error)
      | .ok _ =>
          let (store, created) := s.store.createRule { input with enabled := false } s.now
          (s.setStore store, if enabledRequested then .enableRule created.id actor else .returned)
  | .updateRule id patch actor =>
      match s.store.getRule id with
      | none => (s, .threw ruleNotFound)
      | some current =>
          match validateAutomationRule engine.registries actor (patchedInput current patch) with
          | .error error => (s, .threw error)
          | .ok _ => (s, .updating current patch actor)
  | .updating current patch actor =>
      match s.store.getRule current.id with
      | none => (s, .threw ruleNotFound)
      | some _ =>
          ({ s.setStore (s.store.updateRule current.id patch) with rewritten := s.rewritten ++ [current.id] },
            if current.enabled then
              if current.source = .ai then .disabling current.id else .enableRule current.id actor
            else .returned)
  | .disabling id => (s.setStore (s.store.setRuleEnabled id false (some none)), .returned)
  | .validateRule id actor =>
      match s.store.getRule id with
      | none => (s, .threw ruleNotFound)
      | some rule =>
          match validateAutomationRule engine.registries actor rule.validationInput with
          | .error error => (s, .threw error)
          | .ok _ => ({ s with checked := s.checked ++ [s.read rule] }, .validating (s.read rule))
  | .validating read =>
      (s.setStore (s.store.setRuleEnabled read.rule.id read.rule.enabled (some (some s.now))), .returned)
  | .enableRule id actor =>
      match s.store.getRule id with
      | none => (s, .threw ruleNotFound)
      | some rule =>
          match assertCanEnable rule with
          | .error error => (s, .threw error)
          | .ok _ =>
              match validateAutomationRule engine.registries actor rule.validationInput with
              | .error error => (s, .threw error)
              | .ok _ => ({ s with checked := s.checked ++ [s.read rule] }, .enabling (s.read rule))
  | .enabling read => (s.setStore (s.store.setRuleEnabled read.rule.id true (some (some s.now))), .returned)
  | .disableRule id =>
      match s.store.getRule id with
      | none => (s, .threw ruleNotFound)
      | some _ => (s.setStore (s.store.setRuleEnabled id false), .returned)
  | .handleEvent event => (s, .handling event (s.store.listEnabledRulesByTrigger event.type))
  | .handling _ [] => (s, .returned)
  | .handling event (rule :: rules) =>
      ({ s with system := (engine.handleRule event {} rule s.system).2 }, .handling event rules)
  | .runExecution executionId actor =>
      match s.store.getExecution executionId with
      | none => (s, .threw (.notFound "Automation execution not found"))
      | some execution =>
          (s, if execution.status = .succeeded then .returned else .readingRule execution actor)
  | .readingRule execution actor =>
      match s.store.getRule execution.ruleId with
      | none => (s, .threw ruleNotFound)
      | some rule => (s, .starting execution (s.read rule) actor)
  | .starting execution read actor =>
      -- the patch is made of what the attempt has read of the execution
      let started (stored : AutomationExecutionRecord) : AutomationExecutionRecord :=
        { stored with
          status := .running
          attempt := execution.attempt + 1
          startedAt := some (execution.startedAt.getD s.now)
          errorMessage := none }
      (s.setStore (s.store.modifyExecution execution.id started),
        match s.store.getExecution execution.id with
        | none => .threw (.notFound "Automation execution not found")
        | some stored => .attempting (started stored) read actor 0)
  | .attempting execution read actor index =>
      match read.rule.actions[index]? with
      | none => (s.setStore (s.store.modifyExecution execution.id (·.completed s.now)), .returned)
      | some action =>
          if execution.succeededAt index then (s, .attempting execution read actor (index + 1))
          else
            match engine.checkAction read.rule actor action index with
            | .error error => (s, .failing execution error)
            | .ok _ =>
                ({ s.setStore (s.store.upsertActionRun (actionRun execution action index .running none)) with
                    executed := s.executed ++ [{ read, action }] },
                  .running execution read actor index action)
  | .running execution read actor index action =>
      match outcome with
      | .succeeded =>
          (s.setStore (s.store.upsertActionRun (actionRun execution action index .succeeded (some none))),
            .attempting execution read actor (index + 1))
      | .failed _ message =>
          (s.setStore (s.store.upsertActionRun (actionRun execution action index .failed
              (some (some (engine.sanitizeErrorMessage message))))),
            .failing execution (.thrown message))
  | .failing execution error =>
      (s.setStore (s.store.modifyExecution execution.id
          (·.failed s.now (engine.sanitizeErrorMessage error.message))), .threw error)
  | .returned => (s, .returned)
  | .threw error => (s, .threw error)

inductive GateEvent where
  | call (id : Id) (stage : Stage)
  | step (id : Id) (outcome : ActionOutcome)
  | wait (milliseconds : ℕ)

/-- The stages in which a call can begin. -/
def Stage.isRequest : Stage → Bool
  | .createRule .. | .updateRule .. | .validateRule .. | .enableRule .. | .disableRule .. | .handleEvent ..
  | .runExecution .. => true
  | _ => false

/-- Any call begins or takes its next step. -/
def GateState.step (engine : AutomationEngine) (s : GateState) : GateEvent → GateState
  | .call id request =>
      match Table.lookup RuleCall.id id s.calls with
      | none =>
          if request.isRequest then { s with calls := Table.upsert RuleCall.id { id, stage := request } s.calls }
          else s
      | some _ => s
  | .step id outcome =>
      match Table.lookup RuleCall.id id s.calls with
      | none => s
      | some call =>
          let next := call.stage.advance engine outcome s
          { next.1 with calls := Table.upsert RuleCall.id { call with stage := next.2 } s.calls }
  | .wait milliseconds => { s with system := { s.system with now := s.now + milliseconds } }

end DealFlow360.Automation
