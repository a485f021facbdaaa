import DealFlow360.Events.EventIds
import DealFlow360.Lib.Orders
import DealFlow360.Lib.Table
import Mathlib.Data.List.Lex
import Mathlib.Data.List.Sort
import Mathlib.Tactic.CongrExclamation

/-!
# The capability graph

`graph.ts`: the graph of the capabilities' dependencies, what a selection
requires, the order in which capabilities come after their dependencies, and
the cycles among them. A record keyed by names is a table; loops take as many
turns as they can need at most.

Names are texts of UTF-16 units and are compared as the source's comparison
does, which is the lexicographic order on units. The selection handed to the
searches is one of names of the graph: a name that an object inherits is not
one, and the registry asks for it before.

`insertSorted`, `kahnLoop`, the closure and the depth-first search are loops
with their state as a structure; each has its turns as an argument, and the
modules after this one prove that the turns given are enough.
-/

namespace DealFlow360.Capabilities

open Events

inductive CapabilityKind where
  | application | infrastructure | adapter | architectureMode | deploymentMode
  deriving DecidableEq

structure CapabilityDefinition where
  name : Text
  kind : CapabilityKind
  dependencies : List Text
  optionalDependencies : List Text
  conflicts : List Text
  environmentRequirements : List Text
  infrastructureRequirements : List Text
  providerRequirements : List Text
  architectureCompatibility : List Text
  deploymentCompatibility : List Text
  deriving DecidableEq

inductive CapabilityEdgeKind where
  | dependency | optionalDependency | conflict
  deriving DecidableEq

structure CapabilityGraphEdge where
  source : Text
  target : Text
  kind : CapabilityEdgeKind
  deriving DecidableEq

/-- A node has the fields of its definition, each list without repetitions and in order. -/
abbrev CapabilityGraphNode := CapabilityDefinition

abbrev Adjacency := List (Text × List Text)

structure CapabilityGraph where
  nodes : List CapabilityGraphNode
  edges : List CapabilityGraphEdge
  adjacency : Adjacency
  optionalAdjacency : Adjacency
  conflictAdjacency : Adjacency
  deriving DecidableEq

/-! ## Building -/

scoped instance lawfulBEq_text : LawfulBEq Text := inferInstanceAs (LawfulBEq (List ℕ))

def compareCapabilityNames (left right : Text) : ℤ :=
  if left < right then -1 else if right < left then 1 else 0

def uniqueSortedNames (names : List Text) : List Text :=
  names.dedup.insertionSort fun left right => compareCapabilityNames left right ≤ 0

theorem compareCapabilityNames_neg {left right : Text} : compareCapabilityNames left right < 0 ↔ left < right := by
  unfold compareCapabilityNames
  split
  · next h => exact ⟨fun _ => h, fun _ => by decide⟩
  · next h =>
      refine ⟨fun hneg => ?_, fun h' => absurd h' h⟩
      split at hneg <;> exact absurd hneg (by decide)

theorem compareCapabilityNames_le {left right : Text} : compareCapabilityNames left right ≤ 0 ↔ left ≤ right := by
  unfold compareCapabilityNames
  split
  · next h => exact ⟨fun _ => le_of_lt h, fun _ => by decide⟩
  · split
    · next h => exact ⟨fun hle => absurd hle (by decide), fun hle => absurd hle (not_le_of_gt h)⟩
    · next h => exact ⟨fun _ => le_of_not_gt h, fun _ => le_refl 0⟩

/-- Sorting with the comparison is sorting. -/
theorem insertionSort_names (names : List Text) :
    (names.insertionSort fun left right => compareCapabilityNames left right ≤ 0) = names.insertionSort (· ≤ ·) := by
  have hrel : (fun left right => compareCapabilityNames left right ≤ 0) = (· ≤ · : Text → Text → Prop) :=
    funext₂ fun _ _ => propext compareCapabilityNames_le
  congr!

theorem mem_uniqueSortedNames {names : List Text} {name : Text} : name ∈ uniqueSortedNames names ↔ name ∈ names := by
  unfold uniqueSortedNames
  rw [List.mem_insertionSort, List.mem_dedup]

theorem nodup_uniqueSortedNames (names : List Text) : (uniqueSortedNames names).Nodup :=
  (List.perm_insertionSort _ _).nodup_iff.mpr names.nodup_dedup

theorem sorted_uniqueSortedNames (names : List Text) : (uniqueSortedNames names).Pairwise (· < ·) := by
  have hsorted : (uniqueSortedNames names).Pairwise (· ≤ ·) := by
    unfold uniqueSortedNames
    rw [insertionSort_names]
    exact List.pairwise_insertionSort _ _
  exact hsorted.imp₂ (fun _ _ hle hne => lt_of_le_of_ne hle hne) (nodup_uniqueSortedNames names)

/-- Only which names there are matters. -/
theorem uniqueSortedNames_congr {names others : List Text} (h : ∀ name, name ∈ names ↔ name ∈ others) :
    uniqueSortedNames names = uniqueSortedNames others :=
  (sorted_uniqueSortedNames names).eq_of_mem_iff (sorted_uniqueSortedNames others) fun name => by
    rw [mem_uniqueSortedNames, mem_uniqueSortedNames, h]

def edgeKindOrder : CapabilityEdgeKind → ℤ
  | .dependency => 0
  | .optionalDependency => 1
  | .conflict => 2

def compareEdges (left right : CapabilityGraphEdge) : ℤ :=
  let source := compareCapabilityNames left.source right.source
  let kind := edgeKindOrder left.kind - edgeKindOrder right.kind
  if source ≠ 0 then source else if kind ≠ 0 then kind else compareCapabilityNames left.target right.target

def nodeOf (capability : CapabilityDefinition) : CapabilityGraphNode :=
  let dependencies := uniqueSortedNames capability.dependencies
  { capability with
    dependencies
    optionalDependencies := (uniqueSortedNames capability.optionalDependencies).filter (· ∉ dependencies)
    conflicts := uniqueSortedNames capability.conflicts
    environmentRequirements := uniqueSortedNames capability.environmentRequirements
    infrastructureRequirements := uniqueSortedNames capability.infrastructureRequirements
    providerRequirements := uniqueSortedNames capability.providerRequirements
    architectureCompatibility := uniqueSortedNames capability.architectureCompatibility
    deploymentCompatibility := uniqueSortedNames capability.deploymentCompatibility }

def edgesOf (node : CapabilityGraphNode) : List CapabilityGraphEdge :=
  (node.dependencies.map fun target => { source := node.name, target, kind := .dependency }) ++
    (node.optionalDependencies.map fun target => { source := node.name, target, kind := .optionalDependency }) ++
    node.conflicts.map fun target => { source := node.name, target, kind := .conflict }

/-- `adjacency[name] = names`. -/
def Adjacency.set (adjacency : Adjacency) (name : Text) (names : List Text) : Adjacency :=
  Table.upsert Prod.fst (name, names) adjacency

/-- `adjacency[name]`. -/
def Adjacency.get (adjacency : Adjacency) (name : Text) : Option (List Text) :=
  (Table.lookup Prod.fst name adjacency).map Prod.snd

def CapabilityGraph.add (graph : CapabilityGraph) (capability : CapabilityDefinition) : CapabilityGraph :=
  let node := nodeOf capability
  { nodes := graph.nodes ++ [node]
    edges := graph.edges ++ edgesOf node
    adjacency := graph.adjacency.set node.name node.dependencies
    optionalAdjacency := graph.optionalAdjacency.set node.name node.optionalDependencies
    conflictAdjacency := graph.conflictAdjacency.set node.name node.conflicts }

def emptyGraph : CapabilityGraph where
  nodes := []
  edges := []
  adjacency := []
  optionalAdjacency := []
  conflictAdjacency := []

def buildCapabilityGraph (capabilities : List CapabilityDefinition) : CapabilityGraph :=
  let ordered := capabilities.insertionSort fun left right => compareCapabilityNames left.name right.name ≤ 0
  let graph := ordered.foldl CapabilityGraph.add emptyGraph
  { graph with edges := graph.edges.insertionSort fun left right => compareEdges left right ≤ 0 }

def nodeNames (graph : CapabilityGraph) : List Text := graph.nodes.map (·.name)

/-- `graph.adjacency[name] ?? []`. -/
def CapabilityGraph.required (graph : CapabilityGraph) (name : Text) : List Text := (graph.adjacency.get name).getD []

/-! ## The required closure -/

/-- The stack has its top at the front. -/
def closureLoop (graph : CapabilityGraph) : ℕ → List Text → List Text → List Text
  | 0, _, seen => seen
  | _ + 1, [], seen => seen
  | turns + 1, current :: stack, seen =>
      if current = [] ∨ current ∈ seen then closureLoop graph turns stack seen
      else
        let seen := seen ++ [current]
        closureLoop graph turns
          ((graph.required current).foldl (fun stack dependency =>
            if dependency ∉ seen ∧ dependency ∈ nodeNames graph then dependency :: stack else stack) stack) seen

def requiredClosure (graph : CapabilityGraph) (names : List Text) : List Text :=
  let stack := (uniqueSortedNames names).filter (· ∈ nodeNames graph)
  let turns := stack.length + (graph.adjacency.map fun entry => entry.2.length).sum
  (closureLoop graph turns stack.reverse []).insertionSort fun left right => compareCapabilityNames left right ≤ 0

/-! ## The topological order -/

def insertSorted (names : List Text) (name : Text) : List Text :=
  names.takeWhile (fun other => compareCapabilityNames other name < 0) ++
    name :: names.dropWhile fun other => compareCapabilityNames other name < 0

structure Kahn where
  indegree : Text → ℤ
  dependents : Text → List Text
  ready : List Text
  ordered : List Text

/-- `indegree` and `dependents` take in that `name` depends on `dependency`. -/
def Kahn.count (state : Kahn) (name dependency : Text) : Kahn :=
  { state with
    indegree := Function.update state.indegree name (state.indegree name + 1)
    dependents := Function.update state.dependents dependency (state.dependents dependency ++ [name]) }

def Kahn.release (state : Kahn) (dependent : Text) : Kahn :=
  let left := state.indegree dependent - 1
  { state with
    indegree := Function.update state.indegree dependent left
    ready := if left = 0 then insertSorted state.ready dependent else state.ready }

/-- The empty name ends the loop, as it is falsy. -/
def kahnLoop : ℕ → Kahn → Kahn
  | 0, state => state
  | turns + 1, state =>
      match state.ready with
      | [] => state
      | current :: ready =>
          if current = [] then state
          else
            kahnLoop turns
              ((state.dependents current).foldl Kahn.release { state with ready, ordered := state.ordered ++
                [current] })

/-- The names with adjacency, counted against each other. -/
def kahnStart (graph : CapabilityGraph) (selected : List Text) : Kahn :=
  let start : Kahn := { indegree := fun _ => 0, dependents := fun _ => [], ready := [], ordered := [] }
  let counted := selected.foldl (fun state name =>
    (graph.required name).foldl (fun state dependency =>
      if dependency ∈ selected then state.count name dependency else state) state) start
  { counted with
    dependents := fun name => uniqueSortedNames (counted.dependents name)
    ready := selected.filter (counted.indegree · = 0) }

def topologicalOrder (graph : CapabilityGraph) (names : List Text) : List Text :=
  let selected := (uniqueSortedNames names).filter fun name => (graph.adjacency.get name).isSome
  (kahnLoop selected.length (kahnStart graph selected)).ordered

/-! ## Cycles -/

structure CycleSearch where
  white : List Text
  gray : List Text
  black : List Text
  parent : List (Text × Text)
  cycles : List (List Text)
  seen : List Text

/-- The nodes from `cursor` up to the one below `backTo`, after those of `cycle`. -/
def climb (parent : List (Text × Text)) (backTo : Text) : ℕ → Text → List Text → List Text
  | 0, _, cycle => cycle
  | turns + 1, cursor, cycle =>
      if cursor = backTo then cycle
      else
        match (Table.lookup Prod.fst cursor parent).map Prod.snd with
        | none | some [] => cycle ++ [cursor]
        | some above => climb parent backTo turns above (cycle ++ [cursor])

def walkCycle (parent : List (Text × Text)) (source backTo : Text) : List Text :=
  (climb parent backTo (parent.length + 1) source [backTo] ++ [backTo]).reverse

/-- The first of the least names of a list. -/
def minIndex (names : List Text) : ℕ :=
  (List.range names.length).foldl (fun least index =>
    if compareCapabilityNames (names.getD index []) (names.getD least []) < 0 then index else least) 0

def canonicalizeCycle (cycle : List Text) : List Text :=
  if cycle.length < 2 then cycle
  else
    let body := cycle.dropLast
    body.drop (minIndex body) ++ body.take (minIndex body) ++ [body.getD (minIndex body) []]

/-- `canonical.join('\0')`. -/
def cycleKey (cycle : List Text) : Text := [0].intercalate cycle

def CycleSearch.report (state : CycleSearch) (node dependency : Text) : CycleSearch :=
  let canonical := canonicalizeCycle (walkCycle state.parent node dependency)
  if cycleKey canonical ∈ state.seen then state
  else { state with seen := state.seen ++ [cycleKey canonical], cycles := state.cycles ++ [canonical] }

/-- What `visit` does with one dependency of `node`. -/
def explore (scope : List Text) (visit : Text → CycleSearch → CycleSearch) (node : Text) (state : CycleSearch)
    (dependency : Text) : CycleSearch :=
  if dependency ∉ scope then state
  else if dependency ∈ state.black then state
  else if dependency ∈ state.gray then state.report node dependency
  else visit dependency { state with parent := Table.upsert Prod.fst (dependency, node) state.parent }

def CycleSearch.enter (state : CycleSearch) (node : Text) : CycleSearch :=
  { state with white := state.white.erase node, gray := node :: state.gray }

def CycleSearch.leave (state : CycleSearch) (node : Text) : CycleSearch :=
  { state with gray := state.gray.erase node, black := state.black ++ [node] }

def visit (graph : CapabilityGraph) (scope : List Text) : ℕ → Text → CycleSearch → CycleSearch
  | 0, _, state => state
  | turns + 1, node, state =>
      ((graph.required node).foldl (explore scope (visit graph scope turns) node) (state.enter node)).leave node

def visitIfWhite (graph : CapabilityGraph) (scope : List Text) (state : CycleSearch) (node : Text) : CycleSearch :=
  if node ∈ state.white then visit graph scope scope.length node state else state

/-- By length, then by the names with arrows between them. -/
def compareCycles (left right : List Text) : ℤ :=
  let length := (left.length : ℤ) - right.length
  if length ≠ 0 then length
  else compareCapabilityNames ((codeUnits "→").intercalate left) ((codeUnits "→").intercalate right)

def findCircularDependencies (graph : CapabilityGraph) (names : List Text) : List (List Text) :=
  let scope := (uniqueSortedNames names).filter fun name => (graph.adjacency.get name).isSome
  let start : CycleSearch := { white := scope, gray := [], black := [], parent := [], cycles := [], seen := [] }
  (scope.foldl (visitIfWhite graph scope) start).cycles.insertionSort fun left right => compareCycles left right ≤ 0

end DealFlow360.Capabilities
