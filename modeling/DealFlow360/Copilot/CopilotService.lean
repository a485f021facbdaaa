import DealFlow360.Copilot.Redaction
import DealFlow360.Lib.Expiring
import DealFlow360.Rbac

/-!
# The copilot's turns

A turn runs the planned tools, and those that have to be confirmed are saved
and run when the user confirms. The plan is the AI service's. A tool is what
its registration gives: its schema as the function that parses the arguments,
and of its handler whether it returns an output that is taken. Conversations,
messages, audit records and results are left out, and the copilot is enabled
throughout.

A step of the conversation is a turn, a confirmation or the passing of time,
and the record of a run keeps which handlers were called with which arguments.
The store of what waits is the confirmation store with its token; its record is
encoded as JSON and parsed when it is taken, by `encodePending` and
`parsePending`. The order of the checks of `executeTools` is that of the
source: is the tool registered, is it permitted, do the arguments parse, has it
to be confirmed.
-/

namespace DealFlow360.Copilot

/-! ## Tools -/

inductive AiRiskLevel where
  | low | medium | high
  deriving DecidableEq, Repr

inductive AiActionKind where
  | read | write | deletion | bulkChange | financial | externalMessage | privilegedOdoo
  deriving DecidableEq, Repr

def isHighRiskActionKind : AiActionKind → Bool
  | .deletion | .bulkChange | .financial | .externalMessage | .privilegedOdoo => true
  | .read | .write => false

def isLowConfidence (confidence : Num) : Bool := confidence < 6 / 10

def confirmationRequired (riskLevel : AiRiskLevel) (actionKind : Option AiActionKind)
    (needsConfirmation : Bool) (plannerConfidence : Num) : Bool :=
  needsConfirmation || riskLevel = .high || actionKind.any isHighRiskActionKind ||
    isLowConfidence plannerConfidence && riskLevel ≠ .low

structure RegisteredAiTool (δ : Type) where
  name : String
  requiredPermission : String
  riskLevel : AiRiskLevel
  actionKind : Option AiActionKind := none
  /-- `inputSchema.safeParse`. -/
  safeParse : Arguments → Option δ
  needsConfirmation : δ → Bool := fun _ => false

inductive AiToolStatus where
  | success | failed | denied | invalidArguments | pendingConfirmation
  deriving DecidableEq, Repr

structure CopilotPlannedTool where
  name : String
  arguments : Arguments

/-- What `finishTool` reports, and what the handler was called with. -/
structure AiToolExecution (δ : Type) where
  name : String
  arguments : Arguments
  status : AiToolStatus
  called : Option δ := none

/-- Who runs tools, and which handlers return an output that is taken. -/
structure ToolContext (δ : Type) where
  user : AuthenticatedUser
  confirmed : Bool
  plannerConfidence : Num
  returns : String → δ → Bool

variable {δ : Type}

abbrev Registry (δ : Type) := List (RegisteredAiTool δ)

def Registry.get (registry : Registry δ) (name : String) : Option (RegisteredAiTool δ) :=
  Table.lookup RegisteredAiTool.name name registry

def finishTool (name : String) (arguments : Arguments) (status : AiToolStatus) (called : Option δ) :
    AiToolExecution δ where
  name := name
  arguments := redactArguments arguments
  status := status
  called := called

def executeAiTool (registry : Registry δ) (context : ToolContext δ) (planned : CopilotPlannedTool) :
    AiToolExecution δ :=
  match registry.get planned.name with
  | none => finishTool planned.name planned.arguments .denied none
  | some tool =>
      if !hasPermission context.user tool.requiredPermission then
        finishTool tool.name planned.arguments .denied none
      else
        match tool.safeParse planned.arguments with
        | none => finishTool tool.name planned.arguments .invalidArguments none
        | some data =>
            if confirmationRequired tool.riskLevel tool.actionKind (tool.needsConfirmation data)
                context.plannerConfidence && !context.confirmed then
              finishTool tool.name planned.arguments .pendingConfirmation none
            else
              finishTool tool.name planned.arguments
                (if context.returns tool.name data then .success else .failed) (some data)

/-- `MAX_TOOLS_PER_TURN`. -/
def maxToolsPerTurn : ℕ := 3

def executeTools (registry : Registry δ) (context : ToolContext δ) (planned : List CopilotPlannedTool) :
    List (AiToolExecution δ) :=
  (planned.take maxToolsPerTurn).map (executeAiTool registry context)

/-! ## What waits for a confirmation -/

structure PendingCopilotCommand where
  token : String
  conversationId : String
  userId : String
  tools : List CopilotPlannedTool
  expiresAt : Num

/-- `CONFIRMATION_TTL_MS`. -/
def confirmationTtlMs : ℕ := 10 * 60 * 1000

/-- The record as a value. -/
def PendingCopilotCommand.value (record : PendingCopilotCommand) : JsonValue :=
  .object
    [("token", .string record.token),
     ("conversationId", .string record.conversationId),
     ("userId", .string record.userId),
     ("tools", .array (record.tools.map toolValue)),
     ("expiresAt", .number (.finite record.expiresAt))]
where
  toolValue (tool : CopilotPlannedTool) : JsonValue :=
    .object [("name", .string tool.name), ("arguments", .object tool.arguments)]

/-- What is stored of the record. -/
def encodePending (record : PendingCopilotCommand) : JsonDocument := record.value.stringify

/-- A property of a value; `none` is `undefined`. -/
def JsonValue.get (value : JsonValue) (key : String) : Option JsonValue :=
  match value with
  | .object fields => fields.lookup key
  | _ => none

def parseTool (item : JsonValue) : Option CopilotPlannedTool :=
  match JsonValue.get item "name" with
  | some (.string name) =>
      some
        { name
          arguments :=
            match JsonValue.get item "arguments" with
            | some (.object fields) => fields
            | _ => [] }
  | _ => none

def readPending (value : JsonValue) : Option PendingCopilotCommand :=
  match JsonValue.get value "token", JsonValue.get value "conversationId", JsonValue.get value "userId",
      JsonValue.get value "expiresAt", JsonValue.get value "tools" with
  | some (.string token), some (.string conversationId), some (.string userId), some (.number (.finite expiresAt)),
    some (.array items) =>
      some { token, conversationId, userId, tools := items.filterMap parseTool, expiresAt }
  | _, _, _, _, _ => none

/-- No number of a text is read but as a finite one, so `expiresAt` is finite where it is a number. -/
def parsePending (raw : JsonDocument) : Option PendingCopilotCommand := readPending raw.parse

structure CopilotState where
  now : Timestamp := 0
  data : List (Expiring.Entry String JsonDocument) := []
  used : List (Expiring.Entry String Unit) := []
  /-- How many tokens were drawn. -/
  tokens : ℕ := 0

namespace CopilotState

variable (s : CopilotState)

def save (token conversationId userId : String) (tools : List CopilotPlannedTool) : CopilotState :=
  let record : PendingCopilotCommand :=
    { token, conversationId, userId, tools, expiresAt := (s.now + confirmationTtlMs : ℕ) }
  { s with
    data := Expiring.set s.now conversationId (encodePending record) confirmationTtlMs s.data
    tokens := s.tokens + 1 }

def take (conversationId userId : String) : Option PendingCopilotCommand × CopilotState :=
  match (Expiring.get s.now conversationId s.data).bind parsePending with
  | none => (none, s)
  | some record =>
      if record.userId ≠ userId ∨ record.expiresAt ≤ s.now then (none, s)
      else
        match Expiring.setNx s.now record.token () ⌊max 1 (record.expiresAt - s.now)⌋.toNat s.used with
        | (false, _) => (none, s)
        | (true, used) => (some record, { s with used, data := Expiring.del conversationId s.data })

def clear (conversationId : String) : CopilotState :=
  { s with data := Expiring.del conversationId s.data }

end CopilotState

/-! ## Turns -/

/-- The registered tools, and the ids that `randomUUID` draws: no two are the same. -/
structure CopilotService (δ : Type) where
  registry : Registry δ
  randomUUID : ℕ → String
  distinct : Function.Injective randomUUID

inductive CopilotIntent where
  | answer | tool | clarify
  deriving DecidableEq, Repr

structure CopilotPlan where
  intent : CopilotIntent
  tools : List CopilotPlannedTool
  confidence : Num

inductive CopilotTurnStatus where
  | completed | pendingConfirmation | error
  deriving DecidableEq, Repr

structure CopilotChatResult (δ : Type) where
  status : CopilotTurnStatus
  tools : List (AiToolExecution δ) := []

/-- The handlers run and what each received, in their order. -/
def CopilotChatResult.called (result : CopilotChatResult δ) : List (String × δ) :=
  result.tools.filterMap fun execution => execution.called.map fun data => (execution.name, data)

def CopilotPlan.planned (plan : CopilotPlan) : List CopilotPlannedTool :=
  if plan.intent = .tool then plan.tools else []

def isPending (execution : AiToolExecution δ) : Bool := execution.status = .pendingConfirmation

namespace CopilotService

variable (copilot : CopilotService δ)

def persistAssistantTurn (s : CopilotState) (conversationId userId : String)
    (executions : List (AiToolExecution δ)) : CopilotChatResult δ × CopilotState :=
  if executions.any isPending then
    ({ status := .pendingConfirmation, tools := executions },
      s.save (copilot.randomUUID s.tokens) conversationId userId
        ((executions.filter isPending).map fun execution =>
          { name := execution.name, arguments := execution.arguments }))
  else ({ status := .completed, tools := executions }, s.clear conversationId)

/-- A turn without `confirm`. -/
def chat (s : CopilotState) (conversationId : String) (user : AuthenticatedUser)
    (plan : CopilotPlan) (returns : String → δ → Bool) : CopilotChatResult δ × CopilotState :=
  if plan.planned = [] then ({ status := .completed }, s)
  else
    copilot.persistAssistantTurn s conversationId user.id
      (executeTools copilot.registry
        { user, confirmed := false, plannerConfidence := plan.confidence, returns } plan.planned)

/-- A turn with `confirm`; where nothing is pending it throws. -/
def confirmPending (s : CopilotState) (conversationId : String) (user : AuthenticatedUser)
    (returns : String → δ → Bool) : CopilotChatResult δ × CopilotState :=
  match s.take conversationId user.id with
  | (none, s) => ({ status := .error }, s)
  | (some pending, s) =>
      if pending.tools = [] then ({ status := .error }, s)
      else
        copilot.persistAssistantTurn s conversationId user.id
          (executeTools copilot.registry { user, confirmed := true, plannerConfidence := 1, returns } pending.tools)

end CopilotService

inductive CopilotEvent (δ : Type) where
  | chat (conversationId : String) (user : AuthenticatedUser) (plan : CopilotPlan) (returns : String → δ → Bool)
  | confirm (conversationId : String) (user : AuthenticatedUser) (returns : String → δ → Bool)
  | wait (milliseconds : ℕ)

def CopilotState.wait (s : CopilotState) (milliseconds : ℕ) : CopilotState :=
  { s with now := s.now + milliseconds }

def CopilotService.step (copilot : CopilotService δ) (s : CopilotState) : CopilotEvent δ → CopilotState
  | .chat conversationId user plan returns => (copilot.chat s conversationId user plan returns).2
  | .confirm conversationId user returns => (copilot.confirmPending s conversationId user returns).2
  | .wait milliseconds => s.wait milliseconds

end DealFlow360.Copilot
