import DealFlow360.Js
import DealFlow360.Lib.Table

/-!
# Automation rules

A rule says which events it is for, which conditions their payload has to meet
and which actions are run then. Operators, triggers and actions are registered
by the application, so the registries are given: an operator as the function
that compares, an action with the schema that parses its configuration. Names,
descriptions and the creator of a rule are left out, and so are the results of
actions.

Values are JSON with the numbers of `Numerals`, as payloads come from outside.
A condition names a field of the payload by its path, an operator and a value;
the built-in operators are defined here as the source compares, including what
they make of values of different kinds.

The registries are parameters because modules extend them; nothing is assumed
of an operator or a schema.
-/

namespace DealFlow360.Automation

/-! ## Values -/

inductive Json where
  | null
  | bool (b : Bool)
  | num (x : Num)
  | str (s : String)
  | array (items : List Json)
  | object (fields : List (String × Json))
  /-- A function that every object inherits. -/
  | inherited (name : String)

abbrev Payload := List (String × Json)

def forbiddenSegments : List String := ["__proto__", "prototype", "constructor"]

/-- The functions of `Object.prototype` whose names are identifiers of letters. -/
def inheritedNames : List String :=
  ["toString", "toLocaleString", "valueOf", "hasOwnProperty", "isPrototypeOf", "propertyIsEnumerable"]

/-- A dotted path of identifiers, after trimming. -/
def fieldSegments (path : String) : Option (List String) :=
  let trimmed := trim path
  let segments := (trimmed.toList.splitOn '.').map String.ofList
  if trimmed.length ≤ 128 ∧ segments.all isSegment then some segments else none
where
  isSegment (segment : String) : Bool :=
    match segment.toList with
    | [] => false
    | first :: rest => first.isAlpha && rest.all fun c => c.isAlphanum || c = '_'

/-- The value a segment selects; `none` is `undefined`. -/
def Json.field (value : Json) (segment : String) : Option Json :=
  match value with
  | .object fields =>
      match fields.lookup segment with
      | some found => some found
      | none => if segment ∈ inheritedNames then some (.inherited segment) else none
  | _ => none

def readPayloadPath (payload : Payload) (path : String) : Option Json :=
  (fieldSegments path).bind fun segments =>
    segments.foldl (fun current segment =>
      if segment ∈ forbiddenSegments then none else current.bind (·.field segment)) (some (.object payload))

/-! ## Records -/

structure AutomationCondition where
  field : String
  operator : String
  value : Option Json := none

structure AutomationAction where
  type : String
  config : Payload := []

inductive AutomationRuleSource where
  | manual | ai
  deriving DecidableEq, Repr

structure AutomationRuleRecord where
  id : Id
  enabled : Bool
  priority : ℤ
  trigger : String
  conditions : List AutomationCondition
  actions : List AutomationAction
  source : AutomationRuleSource
  allowDestructive : Bool
  validatedAt : Option Timestamp
  createdAt : Timestamp

inductive AutomationExecutionStatus where
  | queued | running | succeeded | failed | skipped
  deriving DecidableEq, Repr

structure AutomationActionRunRecord where
  actionIndex : ℕ
  actionType : String
  status : AutomationExecutionStatus
  attempt : ℕ
  errorMessage : Option String := none
  deriving DecidableEq, Repr

structure AutomationExecutionRecord where
  id : Id
  ruleId : Id
  eventId : String
  trigger : String
  status : AutomationExecutionStatus
  attempt : ℕ
  maxAttempts : ℕ
  payload : Payload
  errorMessage : Option String
  startedAt : Option Timestamp
  finishedAt : Option Timestamp
  createdAt : Timestamp
  actionRuns : List AutomationActionRunRecord

structure AutomationActor where
  permissions : List String
  deriving DecidableEq, Repr

structure DomainEvent where
  id : String
  type : String
  payload : Payload
  actor : Option AutomationActor := none

/-! ## Errors -/

structure Issue where
  path : String
  message : String
  code : String := "custom"
  deriving DecidableEq, Repr

/-- The issue's path under where the data came from, as `parseWithSchema` answers it. -/
def Issue.qualified (source : String) (issue : Issue) : Issue :=
  { issue with path := if issue.path = "" then source else source ++ "." ++ issue.path }

inductive AutomationError where
  | validation (message : String) (issues : List Issue)
  | authorization (message : String) (requiredPermissions : List String) (action : String)
  | notFound (message : String)
  /-- What a handler, the store or the job queue throws. -/
  | thrown (message : String)
  deriving DecidableEq, Repr

def AutomationError.message : AutomationError → String
  | validation message _ | authorization message _ _ | notFound message | thrown message => message

/-! ## Registries -/

structure RegisteredAction where
  type : String
  requiredPermission : String
  destructive : Bool
  /-- `inputSchema.safeParse(action)`, with the issues of a configuration that is refused. -/
  parse : AutomationAction → Except (List Issue) AutomationAction

abbrev ConditionEvaluator := Option Json → Option Json → Bool

structure AutomationRegistries where
  triggers : List String
  operators : List (String × ConditionEvaluator)
  actions : List RegisteredAction

def AutomationRegistries.action (registries : AutomationRegistries) (type : String) :
    Option RegisteredAction :=
  Table.lookup RegisteredAction.type type registries.actions

/-- Permission keys are compared after trimming and in lower case. -/
def normalizePermissionKey (key : String) : String := (trim key).toLower

def hasPermission (user : AutomationActor) (permission : String) : Bool :=
  normalizePermissionKey permission ∈ user.permissions.map normalizePermissionKey

/-- Whether all conditions hold, in their order; a condition whose operator is unknown throws. -/
def matchesConditions (registries : AutomationRegistries) (payload : Payload) :
    List AutomationCondition → Except AutomationError Bool
  | [] => .ok true
  | condition :: conditions =>
      match registries.operators.lookup condition.operator with
      | none =>
          .error (.validation "Unknown condition operator"
            [{ path := "conditions.operator"
               message := s!"Operator \"{condition.operator}\" is not registered" }])
      | some evaluator =>
          if evaluator (readPayloadPath payload condition.field) condition.value then
            matchesConditions registries payload conditions
          else .ok false

end DealFlow360.Automation
