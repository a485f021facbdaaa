import DealFlow360.Automation.RuleService
import DealFlow360.Events.EventIds

/-!
# Registrations

What the application starts with, and what a module may register on top of it:
operators, triggers and actions. The built-in actions are given by their
permissions and by whether they are destructive; for Odoo also the schema of
the configuration and the handler's own checks are there. The other schemas are
given, and so are the issues of a text or a configuration that is refused.

A registry is a list of entries by name, and registering under a name that is
there, or that is no name, is refused as in the source, with the limits of the
schemas counted in UTF-16 units. The configuration of `callOdoo` is parsed by
its schema and then looked at by the policy: writing needs the confirmation
and, for a rule nobody has confirmed, is destructive.

`Built` says which registries an application can have: what is built in, and
what modules registered on top.
-/

namespace DealFlow360.Automation

/-! ## Names -/

def isLowerLetter (c : Char) : Bool := 'a' ≤ c && c ≤ 'z'

def isIdentifierChar (c : Char) : Bool := isLowerLetter c || ('A' ≤ c && c ≤ 'Z') || ('0' ≤ c && c ≤ '9')

/-- `^[a-z][a-zA-Z0-9]*$`. -/
def isCamelCase (name : String) : Bool :=
  match name.toList with
  | [] => false
  | first :: rest => isLowerLetter first && rest.all isIdentifierChar

/-- `^[a-z][a-z0-9._-]*$`. -/
def isDotted (name : String) : Bool :=
  match name.toList with
  | [] => false
  | first :: rest => isLowerLetter first && rest.all fun c =>
      isLowerLetter c || ('0' ≤ c && c ≤ '9') || c = '.' || c = '_' || c = '-'

/-- `automationActionTypeSchema`, of a type that is trimmed. -/
def isActionType (type : String) : Bool := decide (2 ≤ type.length ∧ type.length ≤ 64) && isCamelCase type

/-- `FORBIDDEN_ACTION_TYPE`, whatever the case. -/
def forbiddenActionTypes : List String :=
  ["eval", "exec", "executesql", "sql", "queryraw", "rawquery", "shell", "bash", "powershell", "spawn", "javascript",
    "js"]

/-! ## Calls to Odoo -/

def odooMethods : List String := ["search", "search_read", "read", "search_count"] ++ odooWriteMethods

/-- What the schema of `callOdoo` answers. -/
structure CallOdooInput where
  capability : String
  method : String
  params : Option Payload
  confirmed : Option Bool

def CallOdooInput.action (input : CallOdooInput) : AutomationAction :=
  { type := "callOdoo"
    config := [("capability", .str input.capability), ("method", .str input.method)] ++
      (input.params.toList.map fun params => ("params", .object params)) ++
      input.confirmed.toList.map fun confirmed => ("confirmed", .bool confirmed) }

def isCapability (capability : String) : Bool :=
  decide (1 ≤ capability.length ∧ capability.length ≤ 64) && isDotted capability

/-! The fields of the schema of `callOdoo`; `none` is a value that is refused. -/

def capabilityField (action : AutomationAction) : Option String :=
  match action.config.lookup "capability" with
  | some (.str capability) => if isCapability (trim capability) then some (trim capability) else none
  | _ => none

def methodField (action : AutomationAction) : Option String :=
  match action.config.lookup "method" with
  | none => some "search_read"
  | some (.str method) => if method ∈ odooMethods then some method else none
  | _ => none

def paramsField (action : AutomationAction) : Option (Option Payload) :=
  match action.config.lookup "params" with
  | none => some none
  | some (.object params) =>
      if params.all fun (name, _) => 1 ≤ (codeUnits name).length ∧ (codeUnits name).length ≤ 64 then some (some params)
      else none
  | _ => none

def confirmedField (action : AutomationAction) : Option (Option Bool) :=
  match action.config.lookup "confirmed" with
  | none => some none
  | some (.bool confirmed) => some (some confirmed)
  | _ => none

def callOdooInput (action : AutomationAction) : Option CallOdooInput := do
  guard (action.type = "callOdoo")
  let capability ← capabilityField action
  let method ← methodField action
  let params ← paramsField action
  let confirmed ← confirmedField action
  some { capability, method, params, confirmed }

/-- The method of a configuration that the schema has answered. -/
def odooMethod (input : AutomationAction) : String :=
  match input.config.lookup "method" with
  | some (.str method) => method
  | _ => "search_read"

/-- The checks of the handler of `callOdoo`, once Odoo is enabled; the actor's error names no action. -/
def callOdooPolicy (rule : AutomationRuleRecord) (actor : Option AutomationActor) (input : AutomationAction) :
    Except AutomationError Unit :=
  let writes : Bool := odooMethod input ∈ odooWriteMethods
  let permission := if writes then "odoo.write" else "odoo.read"
  if writes && !rule.allowDestructive then
    .error (.validation "Odoo writes require explicit destructive policy"
      [{ path := "allowDestructive", message := "Set allowDestructive to true for Odoo write methods" }])
  else
    match actor with
    | some actor =>
        if permission ∈ actor.permissions then .ok ()
        else .error (.authorization "The event actor is not allowed to call this Odoo method" [permission] "")
    | none =>
        if writes && !isConfirmed input then
          .error (.validation "Actorless Odoo writes require confirmed: true on the action"
            [{ path := "confirmed"
               message := "Set confirmed to true on callOdoo write actions used by scheduled or system events" }])
        else .ok ()

/-- How the handler of an action ends: that of `callOdoo` makes its checks first. The rest is given. -/
def handlerOutcome (odooEnabled : Bool) (rule : AutomationRuleRecord) (actor : Option AutomationActor)
    (rest : ActionOutcome) (type : String) (input : AutomationAction) : ActionOutcome :=
  if type = "callOdoo" then
    if !odooEnabled then .failed false "Odoo is not enabled"
    else
      match callOdooPolicy rule actor input with
      | .error error => .failed false error.message
      | .ok _ => rest
  else rest

/-- How the handlers of a rule's actions end, by the index of the action. -/
def AutomationEngine.handlerOutcomes (engine : AutomationEngine) (odooEnabled : Bool) (rule : AutomationRuleRecord)
    (actor : Option AutomationActor) (rest : ℕ → ActionOutcome) (index : ℕ) : ActionOutcome :=
  match rule.actions[index]? with
  | none => rest index
  | some action =>
      match engine.checkAction rule actor action index with
      | .error _ => rest index
      | .ok input => handlerOutcome odooEnabled rule actor (rest index) action.type input

/-! ## What is built in -/

section Builtin

variable (schemas : String → AutomationAction → Except (List Issue) AutomationAction)
  (issues : AutomationAction → List Issue)

def callOdooAction : RegisteredAction :=
  { type := "callOdoo"
    requiredPermission := "odoo.read"
    destructive := false
    parse := fun action =>
      match callOdooInput action with
      | some input => .ok input.action
      | none => .error (issues action) }

/-- The actions of `registerBuiltinActions`. -/
def builtinActions : List RegisteredAction :=
  [ { type := "sendEmail", requiredPermission := "notifications.write", destructive := false
      parse := schemas "sendEmail" },
    { type := "sendNotification", requiredPermission := "notifications.write", destructive := false
      parse := schemas "sendNotification" },
    { type := "generatePDF", requiredPermission := "reports.generate", destructive := false
      parse := schemas "generatePDF" },
    { type := "queueAIAnalysis", requiredPermission := "ai.use", destructive := false
      parse := schemas "queueAIAnalysis" },
    callOdooAction issues,
    { type := "createAuditLog", requiredPermission := "automations.write", destructive := false
      parse := schemas "createAuditLog" },
    { type := "enqueueJob", requiredPermission := "automations.execute", destructive := false
      parse := schemas "enqueueJob" },
    { type := "webhook", requiredPermission := "automations.execute", destructive := true
      parse := schemas "webhook" },
    { type := "updateRecord", requiredPermission := "automations.write", destructive := true
      parse := schemas "updateRecord" } ]

end Builtin

/-- `AUTOMATION_BUILTIN_TRIGGERS`. -/
def builtinTriggers : List String :=
  ["user.created", "order.created", "order.updated", "invoice.overdue", "document.uploaded", "report.completed",
    "scheduled", "webhook.received", "anomaly.detected"]

/-! ## Extension points -/

namespace AutomationRegistries

variable (registries : AutomationRegistries)

def registerOperator (name : String) (evaluator : ConditionEvaluator) : Except AutomationError AutomationRegistries :=
  if !isCamelCase name then
    .error (.validation "Invalid condition operator name"
      [{ path := "config.operator", message := s!"Operator \"{name}\" is not allowed" }])
  else if (registries.operators.lookup name).isSome then
    .error (.validation "Duplicate condition operator"
      [{ path := "config.operator", message := s!"Operator \"{name}\" is already registered" }])
  else .ok { registries with operators := registries.operators ++ [(name, evaluator)] }

/-- `issues` are those of a name that is refused. -/
def registerTrigger (issues : String → List Issue) (name description : String) :
    Except AutomationError AutomationRegistries :=
  let name := trim name
  if !Events.isTriggerName name then
    .error (.validation "Invalid automation trigger name" ((issues name).map (Issue.qualified "config")))
  else if trim description = "" then
    .error (.validation "Automation triggers require a description"
      [{ path := "config.description", message := "Description is required" }])
  else if name ∈ registries.triggers then
    .error (.validation "Duplicate automation trigger"
      [{ path := "config.name", message := s!"Trigger \"{name}\" is already registered" }])
  else .ok { registries with triggers := registries.triggers ++ [name] }

/-- `issues` are those of a type that is refused. -/
def registerAction (issues : String → List Issue) (action : RegisteredAction) (description : String) :
    Except AutomationError AutomationRegistries :=
  let type := trim action.type
  if !isActionType type then
    .error (.validation "Invalid automation action type" ((issues type).map (Issue.qualified "config")))
  else if type.toLower ∈ forbiddenActionTypes then
    .error (.validation "Automation actions cannot expose arbitrary execution"
      [{ path := "config.type", message := s!"Action \"{type}\" is not allowed" }])
  else if trim description = "" then
    .error (.validation "Automation actions require a description"
      [{ path := "config.description", message := "Description is required" }])
  else if (registries.action type).isSome then
    .error (.validation "Duplicate automation action"
      [{ path := "config.type", message := s!"Action \"{type}\" is already registered" }])
  else .ok { registries with actions := registries.actions ++ [{ action with type }] }

/-- The registries of a running application: what is built in, with the operators that were handed in or the built-in
ones, and what was registered since. -/
inductive Extended : AutomationRegistries → Prop
  | builtin (operators : List (String × ConditionEvaluator))
      (schemas : String → AutomationAction → Except (List Issue) AutomationAction)
      (issues : AutomationAction → List Issue) :
      Extended { triggers := builtinTriggers, operators, actions := builtinActions schemas issues }
  | operator {registries registries' : AutomationRegistries} (h : Extended registries) (name : String)
      (evaluator : ConditionEvaluator) (hregister : registries.registerOperator name evaluator = .ok registries') :
      Extended registries'
  | trigger {registries registries' : AutomationRegistries} (h : Extended registries) (issues : String → List Issue)
      (name description : String) (hregister : registries.registerTrigger issues name description = .ok registries') :
      Extended registries'
  | action {registries registries' : AutomationRegistries} (h : Extended registries) (issues : String → List Issue)
      (action : RegisteredAction) (description : String)
      (hregister : registries.registerAction issues action description = .ok registries') : Extended registries'

end AutomationRegistries

end DealFlow360.Automation
