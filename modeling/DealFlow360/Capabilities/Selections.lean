import DealFlow360.Capabilities.Cycles
import DealFlow360.Capabilities.RequiredClosure
import DealFlow360.Capabilities.Resolve

/-!
# Which selections are valid

A selection is valid just if it is complete, and without conflicts and cycles,
and fits what it is to run with; then it is its own closure and its order
leaves out no name. The answer does not depend on the order in which anything
was listed.

For each kind of issue there is one lemma that says when its list is empty
(`unknownIssues_eq_nil`, `dependencyIssues_eq_nil` and so on). Together they
are `valid_iff_fits`: a selection is valid if and only if it fits. The rest is
read off that:

- `order_of_fits`: the order of a selection that fits has every selected name,
  dependencies first, and is its own closure;
- `resolveCapabilities_sound`: what an answer promises, for capabilities of
  different names;
- `resolveCapabilities_order`: the whole answer is the same when the
  capabilities, the lists in them or the selection come in another order or
  with repetitions.

`selected_trimmed` is why the soundness speaks of trimmed names.
-/

namespace DealFlow360.Capabilities

open Events Digraph Relation

/-! ## No errors -/

section Issues

variable {graph : CapabilityGraph} {selected : List Text}

theorem mem_knownSelected {name : Text} : name ∈ knownSelected graph selected ↔ name ∈ selected ∧
    name ∈ nodeNames graph := by
  unfold knownSelected
  rw [List.mem_filter, decide_eq_true_iff]

theorem unknownIssues_eq_nil : unknownIssues graph selected = [] ↔ ∀ name ∈ selected, name ∈ nodeNames graph := by
  unfold unknownIssues
  rw [List.map_eq_nil_iff, List.filter_eq_nil_iff]
  exact forall₂_congr fun name _ => by rw [decide_eq_true_iff, not_not]

theorem dependencyIssues_eq_nil : dependencyIssues graph selected = [] ↔
    ∀ name ∈ knownSelected graph selected, ∀ dependency ∈ graph.required name, dependency ∈ selected := by
  unfold dependencyIssues
  rw [List.flatMap_eq_nil_iff]
  refine forall₂_congr fun name _ => ?_
  rw [List.map_eq_nil_iff, List.filter_eq_nil_iff]
  exact forall₂_congr fun dependency _ => by rw [decide_eq_true_iff, not_not]

theorem tellConflict_ne_nil {pairs : List (Text × Option Text)} {told : List Text × List CapabilityIssue}
    (h : told.2 ≠ []) : (pairs.foldl tellConflict told).2 ≠ [] := by
  induction pairs generalizing told with
  | nil => exact h
  | cons pair pairs ih =>
      refine ih ?_
      unfold tellConflict
      split
      · exact h
      · exact List.append_ne_nil_of_right_ne_nil _ (List.cons_ne_nil _ _)

theorem conflictIssues_eq_nil : conflictIssues graph selected = [] ↔
    ∀ name ∈ knownSelected graph selected, ∀ conflict ∈ graph.conflicting name, conflict ∉ selected := by
  have hfold (pairs : List (Text × Option Text)) : (pairs.foldl tellConflict ([], [])).2 = [] ↔ pairs = [] := by
    cases pairs with
    | nil => exact iff_of_true rfl rfl
    | cons pair pairs =>
        rw [List.foldl_cons]
        refine iff_of_false (tellConflict_ne_nil ?_) (List.cons_ne_nil _ _)
        unfold tellConflict
        rw [if_neg List.not_mem_nil]
        exact List.append_ne_nil_of_right_ne_nil _ (List.cons_ne_nil _ _)
  unfold conflictIssues
  rw [hfold, List.flatMap_eq_nil_iff]
  refine forall₂_congr fun name _ => ?_
  rw [List.map_eq_nil_iff, List.filter_eq_nil_iff]
  exact forall₂_congr fun conflict _ => by rw [decide_eq_true_iff]

theorem modeIssues_eq_nil {kind : CapabilityKind} {code : CapabilityIssueCode} {label mode : Text} :
    modeIssues graph kind code label mode = [] ↔ modeKnown graph kind mode := by
  unfold modeIssues
  split
  · next hknown => exact iff_of_true rfl hknown
  · next hunknown => exact iff_of_false (List.cons_ne_nil _ _) hunknown

theorem supportIssues_eq_nil {kind : CapabilityKind} {code : CapabilityIssueCode}
    {compatibility : CapabilityGraphNode → List Text} {label mode name : Text} {node : CapabilityGraphNode} :
    supportIssues graph kind code compatibility label mode name node = [] ↔
      (modeKnown graph kind mode → mode ∈ compatibility node) := by
  unfold supportIssues
  split
  · next hunsupported => exact iff_of_false (List.cons_ne_nil _ _) fun h => hunsupported.2 (h hunsupported.1)
  · next hsupported => exact iff_of_true rfl fun hknown => not_not.mp fun hmem => hsupported ⟨hknown, hmem⟩

theorem nodeIssues_eq_nil {issues : Text → CapabilityGraphNode → List CapabilityIssue} :
    nodeIssues graph selected issues = [] ↔
      ∀ name ∈ knownSelected graph selected, ∀ node, graph.nodeNamed name = some node → issues name node = [] := by
  unfold nodeIssues
  rw [List.flatMap_eq_nil_iff]
  refine forall₂_congr fun name _ => ?_
  cases graph.nodeNamed name with
  | none => exact iff_of_true rfl fun node hnode => absurd hnode.symm (Option.some_ne_none node)
  | some node => exact ⟨fun h other hother => Option.some.inj hother ▸ h, fun h => h node rfl⟩

end Issues

/-! ## Valid selections -/

/-- What a selected node asks of the request. -/
structure Suits (input : ResolveCapabilitiesInput) (node : CapabilityGraphNode) : Prop where
  architecture : modeOr input.architectureMode defaultArchitectureMode ∈ node.architectureCompatibility
  deployment : modeOr input.deploymentMode defaultDeploymentMode ∈ node.deploymentCompatibility
  environment : ∀ environment, input.environment = some environment →
    ∀ required ∈ node.environmentRequirements, hasEnvValue environment required = true
  infrastructure : ∀ available, input.infrastructure = some available →
    ∀ requirement ∈ node.infrastructureRequirements, requirement ∈ available
  providers : ∀ providers, input.providers = some providers → node.providerRequirements = [] ∨
    ∃ provider ∈ node.providerRequirements, provider ∈ providers

/-- All selected names are registered and all their dependencies selected, no two of them conflict, none leads to a
cycle, the modes are registered where any mode of their kind is, and each node suits the request. -/
structure SelectionFits (input : ResolveCapabilitiesInput) (graph : CapabilityGraph) (selected : List Text) : Prop where
  known : ∀ name ∈ selected, name ∈ nodeNames graph
  complete : ∀ name ∈ selected, ∀ dependency ∈ graph.required name, dependency ∈ selected
  peaceful : ∀ name ∈ selected, ∀ conflict ∈ graph.conflicting name, conflict ∉ selected
  acyclic : ∀ name ∈ selected, ¬LeadsToCycle selected graph.required name
  architectureMode : modeKnown graph .architectureMode (modeOr input.architectureMode defaultArchitectureMode)
  deploymentMode : modeKnown graph .deploymentMode (modeOr input.deploymentMode defaultDeploymentMode)
  suited : ∀ name ∈ selected, ∀ node, graph.nodeNamed name = some node → Suits input node

section Valid

variable {graph : CapabilityGraph} {selected : List Text}

theorem environmentIssues_eq_nil {environment : Option (List (Text × EnvironmentValue))} :
    environmentIssues graph selected environment = [] ↔
      ∀ given, environment = some given → ∀ name ∈ knownSelected graph selected, ∀ node,
        graph.nodeNamed name = some node →
        ∀ required ∈ node.environmentRequirements, hasEnvValue given required = true := by
  unfold environmentIssues
  cases environment with
  | none => exact iff_of_true rfl fun given hgiven => absurd hgiven.symm (Option.some_ne_none given)
  | some environment =>
      rw [Option.elim_some, nodeIssues_eq_nil]
      have hnode (name : Text) (node : CapabilityGraphNode) :
          (node.environmentRequirements.filter fun required => ¬hasEnvValue environment required = true).map
            (fun required =>
            errorIssue .missingEnvironmentVariable name (some required)
              (codeUnits "Capability " ++ quoted name ++ codeUnits " requires environment variable " ++
                required)) = [] ↔
            ∀ required ∈ node.environmentRequirements, hasEnvValue environment required = true := by
        rw [List.map_eq_nil_iff, List.filter_eq_nil_iff]
        exact forall₂_congr fun required _ => by rw [decide_eq_true_iff, not_not]
      simp only [hnode]
      exact ⟨fun h given hgiven => Option.some.inj hgiven ▸ h, fun h => h environment rfl⟩

theorem infrastructureIssues_eq_nil {infrastructure : Option (List Text)} :
    infrastructureIssues graph selected infrastructure = [] ↔
      ∀ available, infrastructure = some available → ∀ name ∈ knownSelected graph selected, ∀ node,
        graph.nodeNamed name = some node → ∀ requirement ∈ node.infrastructureRequirements, requirement ∈
          available := by
  unfold infrastructureIssues
  cases infrastructure with
  | none => exact iff_of_true rfl fun given hgiven => absurd hgiven.symm (Option.some_ne_none given)
  | some available =>
      rw [Option.elim_some, nodeIssues_eq_nil]
      simp only [List.map_eq_nil_iff, List.filter_eq_nil_iff, decide_eq_true_iff, not_not]
      exact ⟨fun h given hgiven => Option.some.inj hgiven ▸ h, fun h => h available rfl⟩

theorem providerIssues_eq_nil {providers : Option (List Text)} :
    providerIssues graph selected providers = [] ↔
      ∀ given, providers = some given → ∀ name ∈ knownSelected graph selected, ∀ node, graph.nodeNamed name =
        some node →
        node.providerRequirements = [] ∨ ∃ provider ∈ node.providerRequirements, provider ∈ given := by
  unfold providerIssues
  cases providers with
  | none => exact iff_of_true rfl fun given hgiven => absurd hgiven.symm (Option.some_ne_none given)
  | some providers =>
      rw [Option.elim_some, nodeIssues_eq_nil]
      simp only [ite_eq_left_iff, List.cons_ne_nil, imp_false, not_not, mem_uniqueSortedNames]
      exact ⟨fun h given hgiven => Option.some.inj hgiven ▸ h, fun h => h providers rfl⟩

end Valid

/-- All issues of the list are errors. -/
def AllErrors (issues : List CapabilityIssue) : Prop := ∀ issue ∈ issues, issue.severity = .error

theorem AllErrors.clean_iff {issues : List CapabilityIssue} (h : AllErrors issues) :
    (∀ issue ∈ issues, issue.severity ≠ .error) ↔ issues = [] := by
  rw [List.eq_nil_iff_forall_not_mem]
  exact forall_congr' fun issue => ⟨fun hclean hmem => hclean hmem (h issue hmem), fun hnone hmem => absurd hmem hnone⟩

theorem AllErrors.map {α : Type} {items : List α} {issue : α → CapabilityIssue}
    (h : ∀ item, (issue item).severity = .error) :
    AllErrors (items.map issue) := by
  intro told htold
  obtain ⟨item, -, rfl⟩ := List.mem_map.mp htold
  exact h item

theorem AllErrors.flatMap {α : Type} {items : List α} {issues : α → List CapabilityIssue}
    (h : ∀ item, AllErrors (issues item)) :
    AllErrors (items.flatMap issues) := by
  intro told htold
  obtain ⟨item, -, hmem⟩ := List.mem_flatMap.mp htold
  exact h item told hmem

theorem AllErrors.nil : AllErrors [] := fun _ hmem => absurd hmem List.not_mem_nil

theorem AllErrors.append {first second : List CapabilityIssue} (h : AllErrors first) (h' : AllErrors second) :
    AllErrors (first ++ second) := fun issue hmem => (List.mem_append.mp hmem).elim (h issue) (h' issue)

theorem AllErrors.single {issue : CapabilityIssue} (h : issue.severity = .error) : AllErrors [issue] := fun _ hmem =>
  List.mem_singleton.mp hmem ▸ h

theorem AllErrors.node {graph : CapabilityGraph} {selected : List Text}
    {issues : Text → CapabilityGraphNode → List CapabilityIssue} (h : ∀ name node, AllErrors (issues name node)) :
    AllErrors (nodeIssues graph selected issues) := by
  refine AllErrors.flatMap fun name => ?_
  cases graph.nodeNamed name with
  | none => exact .nil
  | some node => exact h name node

theorem allErrors_conflictIssues (graph : CapabilityGraph) (selected : List Text) :
    AllErrors (conflictIssues graph selected) := by
  have hfold (pairs : List (Text × Option Text)) (told : List Text × List CapabilityIssue) (htold : AllErrors told.2) :
      AllErrors (pairs.foldl tellConflict told).2 := by
    induction pairs generalizing told with
    | nil => exact htold
    | cons pair pairs ih =>
        refine ih _ ?_
        unfold tellConflict
        split
        · exact htold
        · exact htold.append (.single rfl)
  exact hfold _ _ .nil

theorem allErrors_modeIssues (graph : CapabilityGraph) (kind : CapabilityKind) (code : CapabilityIssueCode)
    (label mode : Text) : AllErrors (modeIssues graph kind code label mode) := by
  unfold modeIssues
  split
  · exact .nil
  · exact .single rfl

theorem allErrors_supportIssues (graph : CapabilityGraph) (kind : CapabilityKind) (code : CapabilityIssueCode)
    (compatibility : CapabilityGraphNode → List Text) (label mode name : Text) (node : CapabilityGraphNode) :
    AllErrors (supportIssues graph kind code compatibility label mode name node) := by
  unfold supportIssues
  split
  · exact .single rfl
  · exact .nil

theorem allErrors_dependencyIssues (graph : CapabilityGraph) (selected : List Text) :
    AllErrors (dependencyIssues graph selected) := by
  refine .flatMap fun name => .map fun dependency => ?_
  unfold dependencyIssue
  split <;> rfl

theorem allErrors_environmentIssues (graph : CapabilityGraph) (selected : List Text)
    (environment : Option (List (Text × EnvironmentValue))) :
    AllErrors (environmentIssues graph selected environment) := by
  unfold environmentIssues
  cases environment with
  | none => exact .nil
  | some environment => exact .node fun _ _ => .map fun _ => rfl

theorem allErrors_infrastructureIssues (graph : CapabilityGraph) (selected : List Text)
    (infrastructure : Option (List Text)) : AllErrors (infrastructureIssues graph selected infrastructure) := by
  unfold infrastructureIssues
  cases infrastructure with
  | none => exact .nil
  | some available => exact .node fun _ _ => .map fun _ => rfl

theorem allErrors_providerIssues (graph : CapabilityGraph) (selected : List Text) (providers : Option (List Text)) :
    AllErrors (providerIssues graph selected providers) := by
  unfold providerIssues
  cases providers with
  | none => exact .nil
  | some providers =>
      refine .node fun name node => ?_
      split
      · exact .nil
      · exact .single rfl

/-- The names of a selection that is its own closure, in the scope of the cycles. -/
theorem cycleScope_of_closed {graph : CapabilityGraph} {selected : List Text} (hempty : [] ∉ selected)
    (hsorted : selected.Pairwise (· < ·)) (hknown : ∀ name ∈ selected, name ∈ nodeNames graph)
    (hclosed : ∀ name ∈ selected, ∀ dependency ∈ graph.required name, dependency ∈ selected) :
    knownSelected graph selected = selected ∧ requiredClosure graph selected = selected ∧
      cycleScope graph selected = selected := by
  have hall : knownSelected graph selected = selected :=
    List.filter_eq_self.mpr fun name hname => decide_eq_true (hknown name hname)
  have hstays {start name : Text} (hstart : start ∈ selected)
      (hpath : ReflTransGen (Arrow (nodeNames graph) graph.required) start name) : name ∈ selected := by
    induction hpath with
    | refl => exact hstart
    | tail _ hlast ih => exact hclosed _ ih _ hlast.points
  have hnever (name : Text) (hname : name ∈ selected) (_ : name ∈ nodeNames graph) :
      ¬ReflTransGen (Arrow (nodeNames graph) graph.required) name [] := fun hpath => hempty (hstays hname hpath)
  have hreach (name : Text) : name ∈ requiredClosure graph selected ↔ name ∈ selected := by
    rw [mem_requiredClosure hnever]
    exact ⟨fun ⟨start, hstart, _, hpath⟩ => hstays hstart hpath,
      fun hname => ⟨name, hname, hknown name hname, ReflTransGen.refl⟩⟩
  have hclosure : requiredClosure graph selected = selected :=
    (sorted_requiredClosure hnever).eq_of_mem_iff hsorted hreach
  refine ⟨hall, hclosure, ?_⟩
  unfold cycleScope
  rw [hall, hclosure]
  refine (sorted_uniqueSortedNames _).eq_of_mem_iff hsorted fun name => ?_
  rw [mem_uniqueSortedNames, List.mem_append, or_self]

theorem sorted_selectionOf (selected : List Text) : (selectionOf selected).Pairwise (· < ·) :=
  sorted_uniqueSortedNames _

theorem mem_selectionOf {selected : List Text} {name : Text} :
    name ∈ selectionOf selected ↔ (∃ passed ∈ selected, trimText passed = name) ∧ name ≠ [] := by
  unfold selectionOf
  rw [mem_uniqueSortedNames, List.mem_filter, List.mem_map, decide_eq_true_iff]

theorem empty_not_mem_selectionOf (selected : List Text) : [] ∉ selectionOf selected := fun h =>
  (mem_selectionOf.mp h).2 rfl

/-- `valid` says that no list of errors has an issue. -/
theorem valid_iff_no_errors {input : ResolveCapabilitiesInput} {graph : CapabilityGraph} {selected : List Text}
    {architectureMode deploymentMode : Text} (hgraph : buildCapabilityGraph input.capabilities = graph)
    (hselected : selectionOf input.selected = selected)
    (harchitecture : modeOr input.architectureMode defaultArchitectureMode = architectureMode)
    (hdeployment : modeOr input.deploymentMode defaultDeploymentMode = deploymentMode) :
    (resolveCapabilities input).valid = true ↔
      unknownIssues graph selected = [] ∧ dependencyIssues graph selected = [] ∧ conflictIssues graph selected = [] ∧
        cycleIssues graph selected = [] ∧
        modeIssues graph .architectureMode .unsupportedArchitectureMode (codeUnits "Architecture")
          architectureMode = [] ∧
        modeIssues graph .deploymentMode .unsupportedDeploymentMode (codeUnits "Deployment") deploymentMode = [] ∧
        compatibilityIssues graph selected architectureMode deploymentMode = [] ∧
        environmentIssues graph selected input.environment = [] ∧
        infrastructureIssues graph selected input.infrastructure = [] ∧
          providerIssues graph selected input.providers = [] := by
  have hvalid : (resolveCapabilities input).valid = true ↔ ∀ issue ∈
      unknownIssues graph selected ++ dependencyIssues graph selected ++ optionalIssues graph selected ++
        conflictIssues graph selected ++ cycleIssues graph selected ++
        modeIssues graph .architectureMode .unsupportedArchitectureMode (codeUnits "Architecture") architectureMode ++
        modeIssues graph .deploymentMode .unsupportedDeploymentMode (codeUnits "Deployment") deploymentMode ++
        compatibilityIssues graph selected architectureMode deploymentMode ++
        environmentIssues graph selected input.environment ++ infrastructureIssues graph selected
          input.infrastructure ++
        providerIssues graph selected input.providers, issue.severity ≠ .error := by
    subst hgraph hselected harchitecture hdeployment
    simp only [resolveCapabilities, List.all_eq_true, List.mem_insertionSort, decide_eq_true_eq]
  have hunknown : AllErrors (unknownIssues graph selected) := .map fun _ => rfl
  have hcycles : AllErrors (cycleIssues graph selected) := .map fun _ => rfl
  have hcompatibility : AllErrors (compatibilityIssues graph selected architectureMode deploymentMode) :=
    .node fun _ _ => (allErrors_supportIssues _ _ _ _ _ _ _ _).append (allErrors_supportIssues _ _ _ _ _ _ _ _)
  have hwarnings : ∀ issue ∈ optionalIssues graph selected, issue.severity ≠ .error := by
    intro issue hmem
    obtain ⟨name, -, hmem⟩ := List.mem_flatMap.mp hmem
    obtain ⟨optional, -, rfl⟩ := List.mem_map.mp hmem
    exact CapabilityIssueSeverity.noConfusion
  rw [hvalid]
  simp only [List.forall_mem_append]
  rw [hunknown.clean_iff, (allErrors_dependencyIssues graph selected).clean_iff,
    (allErrors_conflictIssues graph selected).clean_iff, hcycles.clean_iff, (allErrors_modeIssues _ _ _ _ _).clean_iff,
    (allErrors_modeIssues _ _ _ _ _).clean_iff, hcompatibility.clean_iff,
    (allErrors_environmentIssues graph selected _).clean_iff,
    (allErrors_infrastructureIssues graph selected _).clean_iff,
    (allErrors_providerIssues graph selected _).clean_iff]
  simp only [and_assoc]
  exact and_congr_right fun _ => and_congr_right fun _ => and_iff_right hwarnings

/-- A selection is valid if and only if it fits. -/
theorem valid_iff_fits (input : ResolveCapabilitiesInput) :
    (resolveCapabilities input).valid = true ↔
      SelectionFits input (buildCapabilityGraph input.capabilities) (selectionOf input.selected) := by
  generalize hgraph : buildCapabilityGraph input.capabilities = graph
  generalize hselected : selectionOf input.selected = selected
  have hempty : [] ∉ selected := hselected ▸ empty_not_mem_selectionOf input.selected
  have hsorted : selected.Pairwise (· < ·) := hselected ▸ sorted_selectionOf input.selected
  have hall (hknown : ∀ name ∈ selected, name ∈ nodeNames graph) : knownSelected graph selected = selected :=
    List.filter_eq_self.mpr fun name hname => decide_eq_true (hknown name hname)
  have hcycles (hknown : ∀ name ∈ selected, name ∈ nodeNames graph)
      (hcomplete : ∀ name ∈ selected, ∀ dependency ∈ graph.required name, dependency ∈ selected) :
      cycleIssues graph selected = [] ↔ ∀ name ∈ selected, ¬LeadsToCycle selected graph.required name := by
    obtain ⟨-, -, hscope⟩ := cycleScope_of_closed hempty hsorted hknown hcomplete
    have hsame : selectedNames graph selected = selected := by
      rw [← hgraph] at hknown ⊢
      exact selectedNames_of_known hsorted hknown
    have hnone := @findCircularDependencies_eq_nil graph selected (by rw [hsame]; exact hempty)
    rw [hsame] at hnone
    unfold cycleIssues
    rw [hscope, List.map_eq_nil_iff, hnone]
  rw [valid_iff_no_errors hgraph hselected rfl rfl, unknownIssues_eq_nil, dependencyIssues_eq_nil,
    conflictIssues_eq_nil,
    modeIssues_eq_nil, modeIssues_eq_nil, environmentIssues_eq_nil, infrastructureIssues_eq_nil, providerIssues_eq_nil]
  unfold compatibilityIssues
  rw [nodeIssues_eq_nil]
  simp only [List.append_eq_nil_iff, supportIssues_eq_nil]
  constructor
  · rintro ⟨hknown, hcomplete, hpeaceful, hfree, harchitecture, hdeployment, hmodes, henvironment,
      hinfrastructure, hproviders⟩
    rw [hall hknown] at hcomplete hpeaceful hmodes henvironment hinfrastructure hproviders
    exact {
      known := hknown
      complete := hcomplete
      peaceful := hpeaceful
      acyclic := (hcycles hknown hcomplete).mp hfree
      architectureMode := harchitecture
      deploymentMode := hdeployment
      suited := fun name hname node hfound => {
        architecture := (hmodes name hname node hfound).1 harchitecture
        deployment := (hmodes name hname node hfound).2 hdeployment
        environment := fun given hgiven => henvironment given hgiven name hname node hfound
        infrastructure := fun given hgiven => hinfrastructure given hgiven name hname node hfound
        providers := fun given hgiven => hproviders given hgiven name hname node hfound } }
  · intro h
    rw [hall h.known]
    exact ⟨h.known, h.complete, h.peaceful, (hcycles h.known h.complete).mpr h.acyclic, h.architectureMode,
      h.deploymentMode,
      fun name hname node hfound =>
        ⟨fun _ => (h.suited name hname node hfound).architecture, fun _ =>
          (h.suited name hname node hfound).deployment⟩,
      fun given hgiven name hname node hfound => (h.suited name hname node hfound).environment given hgiven,
      fun given hgiven name hname node hfound => (h.suited name hname node hfound).infrastructure given hgiven,
      fun given hgiven name hname node hfound => (h.suited name hname node hfound).providers given hgiven⟩

/-! ## What a valid answer promises -/

theorem nodeNamed_of_distinct {capabilities : List CapabilityDefinition} {capability : CapabilityDefinition}
    (hdistinct : (capabilities.map (·.name)).Nodup) (hmem : capability ∈ capabilities) :
    (buildCapabilityGraph capabilities).nodeNamed capability.name = some (nodeOf capability) := by
  have hlisted (node : CapabilityGraphNode) :
      node ∈ (buildCapabilityGraph capabilities).nodes.reverse ↔ ∃ other ∈ capabilities, nodeOf other = node := by
    rw [List.mem_reverse, nodes_buildCapabilityGraph, List.mem_map]
    exact exists_congr fun other => and_congr_left fun _ => List.mem_insertionSort _
  unfold CapabilityGraph.nodeNamed
  cases hfound : (buildCapabilityGraph capabilities).nodes.reverse.find? (·.name = capability.name) with
  | none =>
      have hnone := List.find?_eq_none.mp hfound (nodeOf capability) ((hlisted _).mpr ⟨capability, hmem, rfl⟩)
      exact absurd (decide_eq_true rfl) hnone
  | some node =>
      have hname := List.find?_some hfound
      obtain ⟨other, hother, rfl⟩ := (hlisted node).mp (List.mem_of_find?_eq_some hfound)
      rw [List.inj_on_of_nodup_map hdistinct hother hmem (of_decide_eq_true hname)]

/-- Of capabilities with different names each has its own lists in the graph. -/
theorem lists_of_distinct {capabilities : List CapabilityDefinition} {capability : CapabilityDefinition}
    (hdistinct : (capabilities.map (·.name)).Nodup) (hmem : capability ∈ capabilities) :
    (buildCapabilityGraph capabilities).required capability.name = uniqueSortedNames capability.dependencies ∧
      (buildCapabilityGraph capabilities).conflicting capability.name = uniqueSortedNames capability.conflicts := by
  have hsorted := List.perm_insertionSort (fun left right : CapabilityDefinition =>
    compareCapabilityNames left.name right.name ≤ 0) capabilities
  obtain ⟨hadjacency, hconflicts⟩ := @fold_of_distinct _ emptyGraph _ ((hsorted.map _).nodup_iff.mpr hdistinct)
    (hsorted.mem_iff.mpr hmem)
  unfold CapabilityGraph.required CapabilityGraph.conflicting
  exact ⟨congrArg (Option.getD · []) hadjacency, congrArg (Option.getD · []) hconflicts⟩

/-- The order and the closure of a selection that fits. -/
theorem order_of_fits {input : ResolveCapabilitiesInput}
    (hfits : SelectionFits input (buildCapabilityGraph input.capabilities) (selectionOf input.selected)) :
    (resolveCapabilities input).required = selectionOf input.selected ∧
      (resolveCapabilities input).ordered.Perm (selectionOf input.selected) ∧
      ∀ before name after, (resolveCapabilities input).ordered = before ++ name :: after →
        ∀ dependency ∈ (buildCapabilityGraph input.capabilities).required name, dependency ∈ before := by
  have hrequired : (resolveCapabilities input).required = requiredClosure (buildCapabilityGraph input.capabilities)
    (knownSelected (buildCapabilityGraph input.capabilities) (selectionOf input.selected)) := rfl
  have hordered : (resolveCapabilities input).ordered = topologicalOrder (buildCapabilityGraph input.capabilities)
    (knownSelected (buildCapabilityGraph input.capabilities) (selectionOf input.selected)) := rfl
  have hempty := empty_not_mem_selectionOf input.selected
  have hsorted := sorted_selectionOf input.selected
  obtain ⟨hall, hclosure, -⟩ := cycleScope_of_closed hempty hsorted hfits.known hfits.complete
  rw [hall, hclosure] at hrequired
  rw [hall] at hordered
  have hgreedy := greedy_topologicalOrder input.capabilities hempty
  rw [selectedNames_of_known hsorted hfits.known] at hgreedy
  rw [hrequired, hordered]
  refine ⟨rfl, ?_, ?_⟩
  · refine (List.perm_ext_iff_of_nodup hgreedy.legal.nodup (hsorted.imp fun hlt => ne_of_lt hlt)).mpr fun name => ?_
    rw [hgreedy.mem_iff, grounded_iff_not_leadsToCycle]
    exact and_iff_left_of_imp (hfits.acyclic name)
  · intro before name after hsplit dependency hpoints
    have hname := hgreedy.legal.mem (hsplit ▸ List.mem_append_right _ List.mem_cons_self)
    exact hgreedy.legal.after hsplit hpoints (hfits.complete name hname dependency hpoints)

theorem ordered_subset (input : ResolveCapabilitiesInput) {name : Text}
    (h : name ∈ (resolveCapabilities input).ordered) :
    name ∈ selectionOf input.selected := by
  have hordered : (resolveCapabilities input).ordered = topologicalOrder (buildCapabilityGraph input.capabilities)
    (knownSelected (buildCapabilityGraph input.capabilities) (selectionOf input.selected)) := rfl
  have hempty : [] ∉ knownSelected (buildCapabilityGraph input.capabilities) (selectionOf input.selected) := fun hmem =>
    empty_not_mem_selectionOf input.selected (mem_knownSelected.mp hmem).1
  rw [hordered] at h
  have hname := (greedy_topologicalOrder input.capabilities hempty).legal.mem h
  exact (mem_knownSelected.mp (mem_selectedNames.mp hname).1).1

/-- For capabilities of different names: what is selected or ordered was passed, but for white space around it. In
a valid answer nothing is missing, the closure is the selection, the order has just the selected names, each after
what it depends on, no two of them conflict, and each supports the modes of the answer. -/
theorem resolveCapabilities_sound (input : ResolveCapabilitiesInput)
    (hdistinct : (input.capabilities.map (·.name)).Nodup) :
    (∀ name, name ∈ (resolveCapabilities input).selected ∨ name ∈ (resolveCapabilities input).ordered →
        ∃ passed ∈ input.selected, trimText passed = name) ∧
      ((resolveCapabilities input).valid = true →
        (resolveCapabilities input).missing = [] ∧
          (resolveCapabilities input).required = (resolveCapabilities input).selected ∧
          (resolveCapabilities input).ordered.Perm (resolveCapabilities input).selected ∧
          ∀ name ∈ (resolveCapabilities input).selected, ∃ capability ∈ input.capabilities, capability.name = name ∧
            (∀ before after, (resolveCapabilities input).ordered = before ++ name :: after →
              ∀ dependency ∈ capability.dependencies, dependency ∈ before) ∧
            (∀ conflict ∈ capability.conflicts, conflict ∉ (resolveCapabilities input).selected) ∧
            (resolveCapabilities input).architectureMode ∈ capability.architectureCompatibility ∧
            (resolveCapabilities input).deploymentMode ∈ capability.deploymentCompatibility) := by
  have hchosen : (resolveCapabilities input).selected = selectionOf input.selected := rfl
  have hmissing : (resolveCapabilities input).missing =
    (resolveCapabilities input).required.filter (· ∉ selectionOf input.selected) := rfl
  constructor
  · rintro name (hname | hname)
    · exact (mem_selectionOf.mp hname).1
    · exact (mem_selectionOf.mp (ordered_subset input hname)).1
  · intro hvalid
    have hfits := (valid_iff_fits input).mp hvalid
    obtain ⟨hrequired, hperm, hfirst⟩ := order_of_fits hfits
    rw [hmissing, hrequired, hchosen]
    refine ⟨List.filter_eq_nil_iff.mpr fun name hname hout => of_decide_eq_true hout hname, rfl, hperm,
      fun name hname => ?_⟩
    obtain ⟨capability, hmem, rfl⟩ := mem_nodeNames.mp (hfits.known name hname)
    obtain ⟨hdependencies, hconflicts⟩ := lists_of_distinct hdistinct hmem
    have hsuits := hfits.suited capability.name hname (nodeOf capability) (nodeNamed_of_distinct hdistinct hmem)
    refine ⟨capability, hmem, rfl, fun before after hsplit dependency hpoints => ?_, fun conflict hconflict => ?_,
      mem_uniqueSortedNames.mp hsuits.architecture, mem_uniqueSortedNames.mp hsuits.deployment⟩
    · refine hfirst before capability.name after hsplit dependency ?_
      rw [hdependencies, mem_uniqueSortedNames]
      exact hpoints
    · refine hfits.peaceful capability.name hname conflict ?_
      rw [hconflicts, mem_uniqueSortedNames]
      exact hconflict

/-- A request for some of the capabilities, with nothing to run them with. -/
def requestFor (capabilities : List CapabilityDefinition) (selected : List Text) : ResolveCapabilitiesInput where
  capabilities
  selected
  architectureMode := none
  deploymentMode := none
  environment := none
  infrastructure := none
  providers := none

def runnableWith (name : Text) (dependencies : List Text) : CapabilityDefinition :=
  { capabilityWith name dependencies with
    architectureCompatibility := [defaultArchitectureMode]
    deploymentCompatibility := [defaultDeploymentMode] }

/-- The second of the two needs the first, and both run in the default modes. -/
def runnableCapabilities : List CapabilityDefinition :=
  [runnableWith (codeUnits "a") [], runnableWith (codeUnits "b") [codeUnits "a"]]

theorem resolveCapabilities_sound_runnable :
    (resolveCapabilities (requestFor runnableCapabilities [codeUnits "b", codeUnits "a"])).ordered.Perm
      (resolveCapabilities (requestFor runnableCapabilities [codeUnits "b", codeUnits "a"])).selected :=
  ((resolveCapabilities_sound (requestFor runnableCapabilities [codeUnits "b", codeUnits "a"]) (by decide)).2
    (by decide)).2.2.1

/-- The white space around a passed name is not part of the selected one. -/
theorem selected_trimmed :
    ¬∀ input : ResolveCapabilitiesInput, (input.capabilities.map (·.name)).Nodup →
      ∀ name ∈ (resolveCapabilities input).selected, name ∈ input.selected := by
  intro h
  exact absurd (h (requestFor runnableCapabilities [codeUnits " a "]) (by decide) (codeUnits "a") (by decide))
    (by decide)

/-! ## The order of what is listed -/

/-- `add` of a capability whose lists are already without repetitions and in order. -/
def CapabilityGraph.addNode (graph : CapabilityGraph) (node : CapabilityGraphNode) : CapabilityGraph where
  nodes := graph.nodes ++ [node]
  edges := graph.edges ++ edgesOf node
  adjacency := graph.adjacency.set node.name node.dependencies
  optionalAdjacency := graph.optionalAdjacency.set node.name node.optionalDependencies
  conflictAdjacency := graph.conflictAdjacency.set node.name node.conflicts

/-- The names of two capabilities compare. -/
def NamesLe (left right : CapabilityDefinition) : Prop := compareCapabilityNames left.name right.name ≤ 0

instance : DecidableRel NamesLe := fun _ _ => inferInstanceAs (Decidable (_ ≤ _))

theorem pairwise_sortNodes (capabilities : List CapabilityDefinition) :
    (capabilities.insertionSort NamesLe).Pairwise NamesLe := by
  have htotal : Std.Total NamesLe := ⟨fun left right => by
    unfold NamesLe
    rw [compareCapabilityNames_le, compareCapabilityNames_le]
    exact le_total _ _⟩
  have htrans : IsTrans CapabilityDefinition NamesLe := ⟨fun first second third h h' => by
    unfold NamesLe at h h' ⊢
    rw [compareCapabilityNames_le] at h h' ⊢
    exact h.trans h'⟩
  exact List.pairwise_insertionSort _ _

/-- Capabilities of different names are sorted in one way. -/
theorem sortNodes_congr {capabilities others : List CapabilityDefinition}
    (hdistinct : (capabilities.map (·.name)).Nodup)
    (hperm : others.Perm capabilities) : others.insertionSort NamesLe = capabilities.insertionSort NamesLe := by
  have hsorted := (List.perm_insertionSort NamesLe others).trans
    (hperm.trans (List.perm_insertionSort NamesLe capabilities).symm)
  refine hsorted.eq_of_pairwise (fun left right hleft hright hle hge => ?_) (pairwise_sortNodes _)
    (pairwise_sortNodes _)
  have hname : left.name = right.name :=
    le_antisymm (compareCapabilityNames_le.mp hle) (compareCapabilityNames_le.mp hge)
  exact List.inj_on_of_nodup_map hdistinct (hperm.mem_iff.mp ((List.mem_insertionSort _).mp hleft))
    ((List.mem_insertionSort _).mp hright) hname

/-- The graph depends on the nodes only, and not on their order. -/
theorem buildCapabilityGraph_congr {capabilities others : List CapabilityDefinition}
    (hdistinct : (capabilities.map (·.name)).Nodup) (hperm : (others.map nodeOf).Perm (capabilities.map nodeOf)) :
    buildCapabilityGraph others = buildCapabilityGraph capabilities := by
  have hbuild (listed : List CapabilityDefinition) :
      (listed.insertionSort fun left right => compareCapabilityNames left.name right.name ≤ 0).foldl CapabilityGraph.add
          emptyGraph = ((listed.map nodeOf).insertionSort NamesLe).foldl CapabilityGraph.addNode emptyGraph := by
    rw [← List.map_insertionSort NamesLe NamesLe nodeOf listed fun _ _ _ _ => Iff.rfl, List.foldl_map]
    rfl
  have hnames : ((capabilities.map nodeOf).map (·.name)).Nodup := by
    rw [List.map_map]
    exact hdistinct
  unfold buildCapabilityGraph
  dsimp only
  rw [hbuild, hbuild, sortNodes_congr hnames hperm]

theorem mem_of_sameNames {names others : List Text} (h : uniqueSortedNames others = uniqueSortedNames names)
    (name : Text) :
    name ∈ others ↔ name ∈ names := by
  rw [← mem_uniqueSortedNames, h, mem_uniqueSortedNames]

theorem infrastructureIssues_congr {infrastructure others : Option (List Text)} (graph : CapabilityGraph)
    (selected : List Text) (h : others.map uniqueSortedNames = infrastructure.map uniqueSortedNames) :
    infrastructureIssues graph selected others = infrastructureIssues graph selected infrastructure := by
  cases infrastructure with
  | none => rw [Option.map_eq_none_iff.mp h]
  | some infrastructure =>
      obtain ⟨available, rfl, hsame⟩ := Option.map_eq_some_iff.mp h
      unfold infrastructureIssues
      rw [Option.elim_some, Option.elim_some]
      simp only [mem_of_sameNames hsame]

theorem providerIssues_congr {providers others : Option (List Text)} (graph : CapabilityGraph) (selected : List Text)
    (h : others.map uniqueSortedNames = providers.map uniqueSortedNames) :
    providerIssues graph selected others = providerIssues graph selected providers := by
  cases providers with
  | none => rw [Option.map_eq_none_iff.mp h]
  | some providers =>
      obtain ⟨available, rfl, hsame⟩ := Option.map_eq_some_iff.mp h
      unfold providerIssues
      rw [Option.elim_some, Option.elim_some, hsame]

/-- The answer stays the same where the capabilities, the lists in them, the selection, the infrastructure and the
providers are listed in another order or with repetitions, as long as the capabilities have different names. -/
theorem resolveCapabilities_order (input : ResolveCapabilitiesInput) (capabilities : List CapabilityDefinition)
    (selected : List Text) (infrastructure providers : Option (List Text))
    (hdistinct : (input.capabilities.map (·.name)).Nodup)
    (hcapabilities : (capabilities.map nodeOf).Perm (input.capabilities.map nodeOf))
    (hselected : ∀ name, name ∈ selected.map trimText ↔ name ∈ input.selected.map trimText)
    (hinfrastructure : infrastructure.map uniqueSortedNames = input.infrastructure.map uniqueSortedNames)
    (hproviders : providers.map uniqueSortedNames = input.providers.map uniqueSortedNames) :
    resolveCapabilities { input with capabilities, selected, infrastructure, providers } =
      resolveCapabilities input := by
  have hgraph := buildCapabilityGraph_congr hdistinct hcapabilities
  have hnames : selectionOf selected = selectionOf input.selected := by
    unfold selectionOf
    refine uniqueSortedNames_congr fun name => ?_
    rw [List.mem_filter, List.mem_filter, hselected]
  unfold resolveCapabilities
  dsimp only
  rw [hgraph, hnames, infrastructureIssues_congr _ _ hinfrastructure, providerIssues_congr _ _ hproviders]

theorem resolveCapabilities_order_reversed :
    resolveCapabilities { requestFor loopedCapabilities loopedNames with
      capabilities := loopedCapabilities.reverse
      selected := loopedNames.reverse
      infrastructure := none
      providers := none } = resolveCapabilities (requestFor loopedCapabilities loopedNames) :=
  resolveCapabilities_order (requestFor loopedCapabilities loopedNames) loopedCapabilities.reverse
    loopedNames.reverse none
    none (by decide) (by decide) (fun _ => by rw [List.map_reverse, List.mem_reverse]; rfl) rfl rfl

end DealFlow360.Capabilities
