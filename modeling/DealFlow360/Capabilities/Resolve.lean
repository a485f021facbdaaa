import DealFlow360.Capabilities.Graph

/-!
# Checking a selection of capabilities

`resolve.ts`: whether an explicit selection of capabilities fits together and
fits the modes, the environment, the infrastructure and the providers it is to
run with, and in which order it comes. What is wrong is told in issues.

Each kind of issue is a function of the graph and the selection, in the order
in which the source appends them: unknown names, missing dependencies,
conflicts, cycles, the architecture and deployment modes, the environment, the
infrastructure and the providers. An issue carries its code, its severity, the
names it is about and the text of the source. `resolveCapabilities` trims and
sorts the selection, collects the issues and answers with the order; `valid`
says that none of them is an error.
-/

namespace DealFlow360.Capabilities

open Events

inductive CapabilityIssueCode where
  | unknownCapability | missingDependency | circularDependency | conflict | unsupportedArchitectureMode
  | unsupportedDeploymentMode | missingEnvironmentVariable | missingInfrastructure | unavailableProvider
  deriving DecidableEq

def CapabilityIssueCode.text : CapabilityIssueCode → Text
  | .unknownCapability => codeUnits "unknown-capability"
  | .missingDependency => codeUnits "missing-dependency"
  | .circularDependency => codeUnits "circular-dependency"
  | .conflict => codeUnits "conflict"
  | .unsupportedArchitectureMode => codeUnits "unsupported-architecture-mode"
  | .unsupportedDeploymentMode => codeUnits "unsupported-deployment-mode"
  | .missingEnvironmentVariable => codeUnits "missing-environment-variable"
  | .missingInfrastructure => codeUnits "missing-infrastructure"
  | .unavailableProvider => codeUnits "unavailable-provider"

inductive CapabilityIssueSeverity where
  | error | warning
  deriving DecidableEq

inductive IssueDetails where
  | cycle (cycle : List Text)
  | providers (required available : List Text)
  deriving DecidableEq

structure CapabilityIssue where
  code : CapabilityIssueCode
  severity : CapabilityIssueSeverity
  capability : Text
  related : Option Text
  message : Text
  details : Option IssueDetails
  deriving DecidableEq

inductive EnvironmentValue where
  | string (value : Text)
  | number
  | boolean
  | undefined
  | null
  deriving DecidableEq

/-- A request of `resolveCapabilities`; the capabilities are the registered ones. -/
structure ResolveCapabilitiesInput where
  capabilities : List CapabilityDefinition
  selected : List Text
  architectureMode : Option Text
  deploymentMode : Option Text
  environment : Option (List (Text × EnvironmentValue))
  infrastructure : Option (List Text)
  providers : Option (List Text)

structure CapabilityResolution where
  valid : Bool
  architectureMode : Text
  deploymentMode : Text
  selected : List Text
  ordered : List Text
  required : List Text
  missing : List Text
  optionalMissing : List Text
  graph : CapabilityGraph
  issues : List CapabilityIssue

def defaultArchitectureMode : Text := codeUnits "architecture.modular-monolith"

def defaultDeploymentMode : Text := codeUnits "deployment.local-hybrid"

/-- `mode?.trim() || fallback`. -/
def modeOr (mode : Option Text) (fallback : Text) : Text :=
  match mode.map trimText with
  | none | some [] => fallback
  | some mode => mode

def errorIssue (code : CapabilityIssueCode) (capability : Text) (related : Option Text) (message : Text) :
    CapabilityIssue where
  code
  severity := .error
  capability
  related
  message
  details := none

/-! ## The names of a selection -/

def selectionOf (selected : List Text) : List Text := uniqueSortedNames ((selected.map trimText).filter (· ≠ []))

/-- `nodesByName.get(name)`. -/
def CapabilityGraph.nodeNamed (graph : CapabilityGraph) (name : Text) : Option CapabilityGraphNode :=
  graph.nodes.reverse.find? (·.name = name)

/-- `graph.optionalAdjacency[name] ?? []`. -/
def CapabilityGraph.optional (graph : CapabilityGraph) (name : Text) : List Text :=
  (graph.optionalAdjacency.get name).getD []

/-- `graph.conflictAdjacency[name] ?? []`. -/
def CapabilityGraph.conflicting (graph : CapabilityGraph) (name : Text) : List Text :=
  (graph.conflictAdjacency.get name).getD []

def quoted (name : Text) : Text := codeUnits "\"" ++ name ++ codeUnits "\""

/-! ## The issues -/

section Issues

variable (graph : CapabilityGraph) (selected : List Text)

def knownSelected : List Text := selected.filter (· ∈ nodeNames graph)

def unknownIssues : List CapabilityIssue :=
  (selected.filter (· ∉ nodeNames graph)).map fun name =>
    errorIssue .unknownCapability name none (codeUnits "Capability " ++ quoted name ++ codeUnits " is not registered")

def dependencyIssue (name dependency : Text) : CapabilityIssue :=
  if dependency ∉ nodeNames graph then
    errorIssue .unknownCapability name (some dependency)
      (codeUnits "Capability " ++ quoted name ++ codeUnits " depends on unknown capability " ++ quoted dependency)
  else
    errorIssue .missingDependency name (some dependency)
      (codeUnits "Capability " ++ quoted name ++ codeUnits " requires " ++ quoted dependency ++
        codeUnits ", which is not selected")

def dependencyIssues : List CapabilityIssue :=
  (knownSelected graph selected).flatMap fun name =>
    ((graph.required name).filter (· ∉ selected)).map (dependencyIssue graph name)

def optionalIssues : List CapabilityIssue :=
  (knownSelected graph selected).flatMap fun name =>
    ((graph.optional name).filter fun optional => ¬(optional ∈ selected ∨ optional ∈ nodeNames graph)).map
      fun optional =>
      { code := .unknownCapability
        severity := .warning
        capability := name
        related := some optional
        message := codeUnits "Capability " ++ quoted name ++
          codeUnits " lists unknown optional dependency " ++ quoted optional
        details := none }

/-- The lesser and the greater of two names; the greater is missing where they are the same. -/
def conflictPair (name conflict : Text) : Text × Option Text :=
  match uniqueSortedNames [name, conflict] with
  | left :: right :: _ => (left, some right)
  | [left] => (left, none)
  | [] => (name, none)

/-- A name in a template. -/
def shown (name : Option Text) : Text := name.getD (codeUnits "undefined")

def conflictKey (pair : Text × Option Text) : Text := pair.1 ++ 0 :: shown pair.2

def conflictIssue (pair : Text × Option Text) : CapabilityIssue :=
  errorIssue .conflict pair.1 pair.2
    (codeUnits "Capabilities " ++ quoted pair.1 ++ codeUnits " and " ++ quoted (shown pair.2) ++ codeUnits " conflict")

/-- The keys of the pairs told so far, and their issues. -/
def tellConflict (told : List Text × List CapabilityIssue) (pair : Text × Option Text) :
    List Text × List CapabilityIssue :=
  if conflictKey pair ∈ told.1 then told else (told.1 ++ [conflictKey pair], told.2 ++ [conflictIssue pair])

def conflictIssues : List CapabilityIssue :=
  (((knownSelected graph selected).flatMap fun name =>
    ((graph.conflicting name).filter (· ∈ selected)).map (conflictPair name)).foldl tellConflict ([], [])).2

def cycleScope : List Text :=
  uniqueSortedNames (knownSelected graph selected ++ requiredClosure graph (knownSelected graph selected))

def cycleIssue (cycle : List Text) : CapabilityIssue where
  code := .circularDependency
  severity := .error
  capability := cycle.head?.getD (codeUnits "unknown")
  related := (cycle.drop 1).dropLast.head?
  message := codeUnits "Circular dependency: " ++ (codeUnits " → ").intercalate cycle
  details := some (.cycle cycle)

def cycleIssues : List CapabilityIssue := (findCircularDependencies graph (cycleScope graph selected)).map cycleIssue

def modesOf (kind : CapabilityKind) : List Text := (graph.nodes.filter (·.kind = kind)).map (·.name)

/-- Nothing is said of a mode where no mode of its kind is registered. -/
def modeKnown (kind : CapabilityKind) (mode : Text) : Prop := modesOf graph kind = [] ∨ mode ∈ modesOf graph kind

instance (kind : CapabilityKind) (mode : Text) : Decidable (modeKnown graph kind mode) :=
  inferInstanceAs (Decidable (_ ∨ _))

def modeIssues (kind : CapabilityKind) (code : CapabilityIssueCode) (label mode : Text) : List CapabilityIssue :=
  if modeKnown graph kind mode then []
  else [errorIssue code mode none (label ++ codeUnits " mode " ++ quoted mode ++ codeUnits " is not registered")]

/-- The mode that a selected node does not support. -/
def supportIssues (kind : CapabilityKind) (code : CapabilityIssueCode) (compatibility : CapabilityGraphNode → List Text)
    (label mode name : Text) (node : CapabilityGraphNode) : List CapabilityIssue :=
  if modeKnown graph kind mode ∧ mode ∉ compatibility node then
    [errorIssue code name (some mode) (codeUnits "Capability " ++ quoted name ++
      codeUnits " does not support " ++ label ++
      codeUnits " mode " ++ quoted mode)]
  else []

/-- The issues of each selected name that has a node. -/
def nodeIssues (issues : Text → CapabilityGraphNode → List CapabilityIssue) : List CapabilityIssue :=
  (knownSelected graph selected).flatMap fun name => (graph.nodeNamed name).elim [] (issues name)

def compatibilityIssues (architectureMode deploymentMode : Text) : List CapabilityIssue :=
  nodeIssues graph selected fun name node =>
    supportIssues graph .architectureMode .unsupportedArchitectureMode CapabilityDefinition.architectureCompatibility
        (codeUnits "architecture") architectureMode name node ++
      supportIssues graph .deploymentMode .unsupportedDeploymentMode CapabilityDefinition.deploymentCompatibility
        (codeUnits "deployment") deploymentMode name node

def hasEnvValue (environment : List (Text × EnvironmentValue)) (name : Text) : Bool :=
  match (Table.lookup Prod.fst name environment).map Prod.snd with
  | none | some .undefined | some .null => false
  | some (.string value) => trimText value ≠ []
  | some .number | some .boolean => true

def environmentIssues (environment : Option (List (Text × EnvironmentValue))) : List CapabilityIssue :=
  environment.elim [] fun environment =>
    nodeIssues graph selected fun name node =>
      (node.environmentRequirements.filter fun required => ¬hasEnvValue environment required = true).map fun required =>
        errorIssue .missingEnvironmentVariable name (some required)
          (codeUnits "Capability " ++ quoted name ++ codeUnits " requires environment variable " ++ required)

def infrastructureIssues (infrastructure : Option (List Text)) : List CapabilityIssue :=
  infrastructure.elim [] fun available =>
    nodeIssues graph selected fun name node =>
      (node.infrastructureRequirements.filter (· ∉ available)).map fun requirement =>
        errorIssue .missingInfrastructure name (some requirement)
          (codeUnits "Capability " ++ quoted name ++ codeUnits " requires infrastructure " ++ quoted requirement ++
            codeUnits ", which is not available")

def providerIssues (providers : Option (List Text)) : List CapabilityIssue :=
  providers.elim [] fun providers =>
    nodeIssues graph selected fun name node =>
      if node.providerRequirements = [] ∨ ∃ provider ∈ node.providerRequirements, provider ∈
        uniqueSortedNames providers then []
      else
        [{ code := .unavailableProvider
           severity := .error
           capability := name
           related := none
           message := codeUnits "Capability " ++ quoted name ++ codeUnits " requires one of: " ++
             (codeUnits ", ").intercalate node.providerRequirements
           details := some (.providers node.providerRequirements (uniqueSortedNames providers)) }]

end Issues

def compareIssues (left right : CapabilityIssue) : ℤ :=
  let code := compareCapabilityNames left.code.text right.code.text
  let capability := compareCapabilityNames left.capability right.capability
  let related := compareCapabilityNames (left.related.getD []) (right.related.getD [])
  if code ≠ 0 then code
  else if capability ≠ 0 then capability
  else if related ≠ 0 then related
  else compareCapabilityNames left.message right.message

def resolveCapabilities (input : ResolveCapabilitiesInput) : CapabilityResolution :=
  let graph := buildCapabilityGraph input.capabilities
  let selected := selectionOf input.selected
  let architectureMode := modeOr input.architectureMode defaultArchitectureMode
  let deploymentMode := modeOr input.deploymentMode defaultDeploymentMode
  let required := requiredClosure graph (knownSelected graph selected)
  let issues := unknownIssues graph selected ++ dependencyIssues graph selected ++ optionalIssues graph selected ++
    conflictIssues graph selected ++ cycleIssues graph selected ++
    modeIssues graph .architectureMode .unsupportedArchitectureMode (codeUnits "Architecture") architectureMode ++
    modeIssues graph .deploymentMode .unsupportedDeploymentMode (codeUnits "Deployment") deploymentMode ++
    compatibilityIssues graph selected architectureMode deploymentMode ++
    environmentIssues graph selected input.environment ++ infrastructureIssues graph selected input.infrastructure ++
    providerIssues graph selected input.providers
  let sortedIssues := issues.insertionSort fun left right => compareIssues left right ≤ 0
  { valid := sortedIssues.all fun issue => issue.severity ≠ .error
    architectureMode
    deploymentMode
    selected
    ordered := topologicalOrder graph (knownSelected graph selected)
    required
    missing := required.filter (· ∉ selected)
    optionalMissing := (uniqueSortedNames ((knownSelected graph selected).flatMap graph.optional)).filter (· ∉ selected)
    graph
    issues := sortedIssues }

end DealFlow360.Capabilities
