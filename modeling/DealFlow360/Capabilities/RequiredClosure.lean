import DealFlow360.Capabilities.TopologicalOrder

/-!
# The required closure is what is reached

The loop keeps that what it has seen or will see is reached from the names it
began with, and that the dependencies of what it has seen are seen or will be.
Its turns are enough, as the dependencies of each name are put on the stack
once at most.

`pending` counts the dependencies that are still to be put on the stack. It
falls with each name that is seen (`pending_append`), so the turns of the loop
suffice for any graph.

- `closing_loop`: the loop's invariant to its end;
- `mem_requiredClosure`: the closure has what the known names reach among the
  known ones;
- `requiredClosure_reaches`: in order, without repetitions, and just what the
  selected capabilities need.

Reachability is the reflexive-transitive closure of the arrows of the graph, as
Mathlib has it.
-/

namespace DealFlow360.Capabilities

open Events Digraph Relation

/-! ## The loop -/

/-- The dependencies of the names that are not seen, counted. -/
def pending (adjacency : Adjacency) (seen : List Text) : ℕ :=
  ((adjacency.filter (·.1 ∉ seen)).map fun entry => entry.2.length).sum

theorem pending_nil (adjacency : Adjacency) :
    pending adjacency [] = (adjacency.map fun entry => entry.2.length).sum := by
  unfold pending
  rw [List.filter_eq_self.mpr fun entry _ => decide_eq_true List.not_mem_nil]

theorem pending_cons (entry : Text × List Text) (adjacency : Adjacency) (seen : List Text) :
    pending (entry :: adjacency) seen = (if entry.1 ∈ seen then 0 else entry.2.length) + pending adjacency seen := by
  unfold pending
  by_cases hseen : entry.1 ∈ seen
  · rw [List.filter_cons, if_neg (fun h : decide (entry.1 ∉ seen) = true => of_decide_eq_true h hseen),
      if_pos hseen, Nat.zero_add]
  · rw [List.filter_cons, if_pos (decide_eq_true hseen), if_neg hseen, List.map_cons, List.sum_cons]

theorem pending_le (adjacency : Adjacency) (seen more : List Text) :
    pending adjacency (seen ++ more) ≤ pending adjacency seen := by
  induction adjacency with
  | nil => exact le_refl _
  | cons entry adjacency ih =>
      rw [pending_cons, pending_cons]
      by_cases hseen : entry.1 ∈ seen
      · rw [if_pos hseen, if_pos (List.mem_append_left _ hseen)]
        exact Nat.add_le_add_left ih 0
      · rw [if_neg hseen]
        refine Nat.add_le_add ?_ ih
        split <;> omega

/-- Seeing a name takes its dependencies out of the count. -/
theorem pending_append {adjacency : Adjacency} {seen : List Text} {current : Text} (hcurrent : current ∉ seen) :
    pending adjacency (seen ++ [current]) + ((Adjacency.get adjacency current).getD []).length ≤
      pending adjacency seen := by
  induction adjacency with
  | nil => exact le_refl _
  | cons entry adjacency ih =>
      have hget : Adjacency.get (entry :: adjacency) current =
          if entry.1 = current then some entry.2 else Adjacency.get adjacency current := by
        unfold Adjacency.get
        rw [Table.lookup_cons]
        split <;> rfl
      rw [pending_cons, pending_cons, hget]
      by_cases hentry : entry.1 = current
      · rw [if_pos hentry, if_pos (List.mem_append_right _ (List.mem_singleton.mpr hentry)),
          if_neg (hentry ▸ hcurrent), Option.getD_some]
        have hle := pending_le adjacency seen [current]
        omega
      · have hseen : entry.1 ∈ seen ++ [current] ↔ entry.1 ∈ seen := by
          rw [List.mem_append, List.mem_singleton, or_iff_left hentry]
        rw [if_neg hentry, if_congr hseen rfl rfl]
        omega

/-- Between the turns of the loop. -/
structure Closing (graph : CapabilityGraph) (names stack seen : List Text) : Prop where
  reached : ∀ x, x ∈ stack ∨ x ∈ seen → x ∈ nodeNames graph ∧
    ∃ name ∈ names, ReflTransGen (Arrow (nodeNames graph) graph.required) name x
  closed : ∀ x ∈ seen, ∀ y, Arrow (nodeNames graph) graph.required x y → y ∈ seen ∨ y ∈ stack
  names : ∀ name ∈ names, name ∈ seen ∨ name ∈ stack
  once : seen.Nodup

theorem mem_push {graph : CapabilityGraph} {seen dependencies stack pushed : List Text}
    (h : dependencies.foldl (fun stack dependency =>
      if dependency ∉ seen ∧ dependency ∈ nodeNames graph then dependency :: stack else stack) stack = pushed) :
    (∀ x, x ∈ pushed ↔ x ∈ stack ∨ x ∈ dependencies ∧ x ∉ seen ∧ x ∈ nodeNames graph) ∧
      pushed.length ≤ stack.length + dependencies.length := by
  induction dependencies generalizing stack with
  | nil =>
      subst h
      refine ⟨fun x => ?_, le_refl _⟩
      rw [List.foldl_nil]
      exact ⟨Or.inl, fun h => h.elim id fun h => absurd h.1 List.not_mem_nil⟩
  | cons dependency dependencies ih =>
      rw [List.foldl_cons] at h
      obtain ⟨hmem, hlength⟩ := ih h
      split at hmem
      · next hpush =>
          rw [if_pos hpush, List.length_cons] at hlength
          refine ⟨fun x => ?_, by rw [List.length_cons]; omega⟩
          rw [hmem, List.mem_cons, List.mem_cons]
          constructor
          · rintro ((rfl | hx) | hx)
            · exact .inr ⟨.inl rfl, hpush⟩
            · exact .inl hx
            · exact .inr ⟨.inr hx.1, hx.2⟩
          · rintro (hx | ⟨rfl | hx, hpushed⟩)
            · exact .inl (.inr hx)
            · exact .inl (.inl rfl)
            · exact .inr ⟨hx, hpushed⟩
      · next hskip =>
          rw [if_neg hskip] at hlength
          refine ⟨fun x => ?_, by rw [List.length_cons]; omega⟩
          rw [hmem, List.mem_cons]
          constructor
          · exact Or.imp_right fun hx => ⟨.inr hx.1, hx.2⟩
          · rintro (hx | ⟨rfl | hx, hpushed⟩)
            · exact .inl hx
            · exact absurd hpushed hskip
            · exact .inr ⟨hx, hpushed⟩

/-- The turns are enough for the names on the stack and the dependencies to come. The empty name would be passed
over. -/
theorem closing_loop {graph : CapabilityGraph} {names stack seen : List Text} {turns : ℕ}
    (hempty : ∀ name ∈ names, ¬ReflTransGen (Arrow (nodeNames graph) graph.required) name [])
    (h : Closing graph names stack seen) (hturns : stack.length + pending graph.adjacency seen ≤ turns) :
    Closing graph names [] (closureLoop graph turns stack seen) := by
  induction turns generalizing stack seen with
  | zero =>
      rw [List.eq_nil_of_length_eq_zero (by omega : stack.length = 0)] at h
      exact h
  | succ turns ih =>
      cases stack with
      | nil => exact h
      | cons current stack =>
          rw [List.length_cons] at hturns
          unfold closureLoop
          obtain ⟨hnode, name, hname, hpath⟩ := h.reached current (.inl List.mem_cons_self)
          have hne : current ≠ [] := fun heq => hempty name hname (heq ▸ hpath)
          by_cases hseen : current ∈ seen
          · rw [if_pos (.inr hseen)]
            refine ih ?_ (by omega)
            exact {
              reached := fun x hx => h.reached x (hx.imp_left (List.mem_cons_of_mem _))
              closed := fun x hx y hxy => (h.closed x hx y hxy).elim .inl fun hy =>
                (List.mem_cons.mp hy).elim (fun heq => .inl (heq ▸ hseen)) .inr
              names := fun other hother => (h.names other hother).elim .inl fun hy =>
                (List.mem_cons.mp hy).elim (fun heq => .inl (heq ▸ hseen)) .inr
              once := h.once }
          · rw [if_neg (not_or.mpr ⟨hne, hseen⟩)]
            dsimp only
            generalize hpush : (graph.required current).foldl _ stack = pushed
            obtain ⟨hmem, hlength⟩ := mem_push hpush
            have hpending := @pending_append graph.adjacency _ _ hseen
            have hrequired : (graph.required current).length = ((graph.adjacency.get current).getD []).length := rfl
            refine ih ?_ (by omega)
            exact {
              reached := fun x hx => by
                rw [hmem, List.mem_append, List.mem_singleton] at hx
                rcases hx with (hx | hx) | hx | rfl
                · exact h.reached x (.inl (List.mem_cons_of_mem _ hx))
                · exact ⟨hx.2.2, name, hname, hpath.tail ⟨hnode, hx.2.2, hx.1⟩⟩
                · exact h.reached x (.inr hx)
                · exact ⟨hnode, name, hname, hpath⟩
              closed := fun x hx y hxy => by
                rw [hmem, List.mem_append, List.mem_singleton]
                rcases List.mem_append.mp hx with hx | hx
                · rcases h.closed x hx y hxy with hy | hy
                  · exact .inl (.inl hy)
                  · exact (List.mem_cons.mp hy).elim (fun heq => .inl (.inr heq)) fun hy => .inr (.inl hy)
                · obtain rfl := List.mem_singleton.mp hx
                  by_cases hy : y ∈ seen ∨ y = x
                  · exact .inl hy
                  · exact .inr (.inr ⟨hxy.points, hy, hxy.target⟩)
              names := fun other hother => by
                rw [hmem, List.mem_append, List.mem_singleton]
                rcases h.names other hother with hy | hy
                · exact .inl (.inl hy)
                · exact (List.mem_cons.mp hy).elim (fun heq => .inl (.inr heq)) fun hy => .inr (.inl hy)
              once := List.nodup_append.mpr ⟨h.once, List.nodup_singleton _, fun x hx y hy heq =>
                hseen (List.mem_singleton.mp hy ▸ heq ▸ hx)⟩ }

theorem closing_requiredClosure {graph : CapabilityGraph} {names : List Text}
    (hempty : ∀ name ∈ names, name ∈ nodeNames graph →
      ¬ReflTransGen (Arrow (nodeNames graph) graph.required) name []) :
    ∃ seen, Closing graph ((uniqueSortedNames names).filter (· ∈ nodeNames graph)) [] seen ∧
      requiredClosure graph names = seen.insertionSort (· ≤ ·) := by
  refine ⟨_, closing_loop (fun name hname => ?_) ?_ ?_, insertionSort_names _⟩
  · obtain ⟨hmem, hnode⟩ := List.mem_filter.mp hname
    exact hempty name (mem_uniqueSortedNames.mp hmem) (of_decide_eq_true hnode)
  · exact {
      reached := fun x hx => by
        rw [List.mem_reverse, or_iff_left List.not_mem_nil] at hx
        exact ⟨of_decide_eq_true (List.mem_filter.mp hx).2, x, hx, ReflTransGen.refl⟩
      closed := fun x hx => absurd hx List.not_mem_nil
      names := fun name hname => .inr (List.mem_reverse.mpr hname)
      once := List.nodup_nil }
  · rw [List.length_reverse, pending_nil]

/-- The closure has what the known names reach among the known ones. -/
theorem mem_requiredClosure {graph : CapabilityGraph} {names : List Text}
    (hempty : ∀ name ∈ names, name ∈ nodeNames graph →
      ¬ReflTransGen (Arrow (nodeNames graph) graph.required) name []) {x : Text} :
    x ∈ requiredClosure graph names ↔
      ∃ name ∈ names, name ∈ nodeNames graph ∧ ReflTransGen (Arrow (nodeNames graph) graph.required) name x := by
  obtain ⟨seen, hclosing, hclosure⟩ := closing_requiredClosure hempty
  have hstart (name : Text) : name ∈ (uniqueSortedNames names).filter (· ∈ nodeNames graph) ↔
      name ∈ names ∧ name ∈ nodeNames graph := by
    rw [List.mem_filter, mem_uniqueSortedNames, decide_eq_true_iff]
  rw [hclosure, List.mem_insertionSort]
  constructor
  · intro hx
    obtain ⟨-, name, hname, hpath⟩ := hclosing.reached x (.inr hx)
    exact ⟨name, ((hstart name).mp hname).1, ((hstart name).mp hname).2, hpath⟩
  · rintro ⟨name, hname, hnode, hpath⟩
    induction hpath with
    | refl => exact (hclosing.names name ((hstart name).mpr ⟨hname, hnode⟩)).resolve_right List.not_mem_nil
    | tail _ hlast ih => exact (hclosing.closed _ ih _ hlast).resolve_right List.not_mem_nil

theorem sorted_requiredClosure {graph : CapabilityGraph} {names : List Text}
    (hempty : ∀ name ∈ names, name ∈ nodeNames graph →
      ¬ReflTransGen (Arrow (nodeNames graph) graph.required) name []) :
    (requiredClosure graph names).Pairwise (· < ·) := by
  obtain ⟨seen, hclosing, hclosure⟩ := closing_requiredClosure hempty
  rw [hclosure]
  exact (List.pairwise_insertionSort (· ≤ ·) seen).imp₂ (fun _ _ hle hne => lt_of_le_of_ne hle hne)
    ((List.perm_insertionSort _ _).nodup_iff.mpr hclosing.once)

/-- Without an empty node none is reached. -/
theorem not_reached_empty {graph : CapabilityGraph} (hempty : [] ∉ nodeNames graph) {name : Text}
    (hname : name ∈ nodeNames graph) : ¬ReflTransGen (Arrow (nodeNames graph) graph.required) name [] := by
  intro hpath
  rcases ReflTransGen.cases_tail hpath with heq | ⟨_, -, hlast⟩
  · exact hempty (heq ▸ hname)
  · exact hempty hlast.target

/-! ## The nodes of a built graph -/

theorem Adjacency.get_set (adjacency : Adjacency) (name other : Text) (names : List Text) :
    (adjacency.set name names).get other = if name = other then some names else adjacency.get other := by
  unfold Adjacency.get Adjacency.set
  rw [Table.lookup_upsert]
  exact apply_ite (Option.map Prod.snd) _ _ _

theorem fold_nodes (capabilities : List CapabilityDefinition) (graph : CapabilityGraph) :
    (capabilities.foldl CapabilityGraph.add graph).nodes = graph.nodes ++ capabilities.map nodeOf := by
  induction capabilities generalizing graph with
  | nil => rw [List.foldl_nil, List.map_nil, List.append_nil]
  | cons capability capabilities ih =>
      rw [List.foldl_cons, ih, List.map_cons]
      show (graph.nodes ++ [nodeOf capability]) ++ _ = _
      rw [List.append_assoc, List.singleton_append]

theorem fold_adjacency (capabilities : List CapabilityDefinition) (graph : CapabilityGraph) {name : Text}
    (hname : (graph.adjacency.get name).isSome ∨ ∃ capability ∈ capabilities, capability.name = name) :
    ((capabilities.foldl CapabilityGraph.add graph).adjacency.get name).isSome := by
  induction capabilities generalizing graph with
  | nil => exact hname.resolve_right fun ⟨capability, hmem, _⟩ => absurd hmem List.not_mem_nil
  | cons capability capabilities ih =>
      rw [List.foldl_cons]
      have hget : (graph.add capability).adjacency.get name =
          if capability.name = name then some (nodeOf capability).dependencies else graph.adjacency.get name :=
        graph.adjacency.get_set capability.name name _
      refine ih _ ?_
      rw [hget]
      by_cases hsame : capability.name = name
      · rw [if_pos hsame]
        exact .inl rfl
      · rw [if_neg hsame]
        refine hname.imp_right fun ⟨other, hmem, hother⟩ => ?_
        rcases List.mem_cons.mp hmem with rfl | hmem
        · exact absurd hother hsame
        · exact ⟨other, hmem, hother⟩

theorem fold_of_not_mem {capabilities : List CapabilityDefinition} {graph : CapabilityGraph} {name : Text}
    (hname : name ∉ capabilities.map (·.name)) :
    (capabilities.foldl CapabilityGraph.add graph).adjacency.get name = graph.adjacency.get name ∧
      (capabilities.foldl CapabilityGraph.add graph).conflictAdjacency.get name = graph.conflictAdjacency.get name := by
  induction capabilities generalizing graph with
  | nil => exact ⟨rfl, rfl⟩
  | cons capability capabilities ih =>
      rw [List.map_cons, List.mem_cons, not_or] at hname
      obtain ⟨hadjacency, hconflicts⟩ := @ih (graph.add capability) hname.2
      rw [List.foldl_cons, hadjacency, hconflicts]
      exact ⟨(graph.adjacency.get_set capability.name name _).trans (if_neg (Ne.symm hname.1)),
        (graph.conflictAdjacency.get_set capability.name name _).trans (if_neg (Ne.symm hname.1))⟩

/-- Of capabilities with different names each has its own lists in the graph. -/
theorem fold_of_distinct {capabilities : List CapabilityDefinition} {graph : CapabilityGraph}
    {capability : CapabilityDefinition} (hdistinct : (capabilities.map (·.name)).Nodup)
    (hmem : capability ∈ capabilities) :
    (capabilities.foldl CapabilityGraph.add graph).adjacency.get capability.name =
      some (nodeOf capability).dependencies ∧
      (capabilities.foldl CapabilityGraph.add graph).conflictAdjacency.get capability.name =
        some (nodeOf capability).conflicts := by
  induction capabilities generalizing graph with
  | nil => exact absurd hmem List.not_mem_nil
  | cons first capabilities ih =>
      rw [List.map_cons, List.nodup_cons] at hdistinct
      rw [List.foldl_cons]
      rcases List.mem_cons.mp hmem with rfl | hmem
      · obtain ⟨hadjacency, hconflicts⟩ := @fold_of_not_mem _ (graph.add capability) _ hdistinct.1
        rw [hadjacency, hconflicts]
        exact ⟨(graph.adjacency.get_set capability.name capability.name _).trans (if_pos rfl),
          (graph.conflictAdjacency.get_set capability.name capability.name _).trans (if_pos rfl)⟩
      · exact ih hdistinct.2 hmem

theorem nodes_buildCapabilityGraph (capabilities : List CapabilityDefinition) :
    (buildCapabilityGraph capabilities).nodes = (capabilities.insertionSort fun left right =>
      compareCapabilityNames left.name right.name ≤ 0).map nodeOf :=
  (fold_nodes _ emptyGraph).trans (List.nil_append _)

theorem mem_nodeNames {capabilities : List CapabilityDefinition} {name : Text} :
    name ∈ nodeNames (buildCapabilityGraph capabilities) ↔ ∃ capability ∈ capabilities, capability.name = name := by
  unfold nodeNames
  rw [nodes_buildCapabilityGraph, List.map_map, List.mem_map]
  refine exists_congr fun capability => ?_
  rw [List.mem_insertionSort]
  rfl

/-- A known name has its dependencies in the graph. -/
theorem adjacency_of_known {capabilities : List CapabilityDefinition} {name : Text}
    (hname : name ∈ nodeNames (buildCapabilityGraph capabilities)) :
    ((buildCapabilityGraph capabilities).adjacency.get name).isSome := by
  obtain ⟨capability, hmem, hsame⟩ := mem_nodeNames.mp hname
  exact fold_adjacency _ emptyGraph (.inr ⟨capability, (List.mem_insertionSort _).mpr hmem, hsame⟩)

theorem selectedNames_of_known {capabilities : List CapabilityDefinition} {names : List Text}
    (hsorted : names.Pairwise (· < ·)) (hknown : ∀ name ∈ names, name ∈ nodeNames (buildCapabilityGraph capabilities)) :
    selectedNames (buildCapabilityGraph capabilities) names = names :=
  (sorted_selectedNames _ names).eq_of_mem_iff hsorted fun name => by
    rw [mem_selectedNames]
    exact and_iff_left_of_imp fun hname => adjacency_of_known (hknown name hname)

/-- Without repetitions and in order, and just what the selected capabilities need, for capabilities with names. -/
theorem requiredClosure_reaches (capabilities : List CapabilityDefinition) (names : List Text)
    (hnames : ∀ capability ∈ capabilities, capability.name ≠ []) :
    let graph := buildCapabilityGraph capabilities
    (requiredClosure graph names).Pairwise (· < ·) ∧ ∀ name, name ∈ requiredClosure graph names ↔
      ∃ start ∈ names, start ∈ nodeNames graph ∧ ReflTransGen (Arrow (nodeNames graph) graph.required) start name := by
  intro graph
  have hempty : [] ∉ nodeNames graph := fun h => by
    obtain ⟨capability, hmem, hname⟩ := mem_nodeNames.mp h
    exact hnames capability hmem hname
  have hnever (name : Text) (_ : name ∈ names) (hnode : name ∈ nodeNames graph) := not_reached_empty hempty hnode
  exact ⟨sorted_requiredClosure hnever, fun name => mem_requiredClosure hnever⟩

theorem requiredClosure_reaches_looped :
    (requiredClosure (buildCapabilityGraph loopedCapabilities) [codeUnits "c"]).Pairwise (· < ·) :=
  (requiredClosure_reaches loopedCapabilities [codeUnits "c"] (by decide)).1

end DealFlow360.Capabilities
