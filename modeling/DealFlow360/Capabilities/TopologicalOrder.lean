import DealFlow360.Capabilities.Graph

/-!
# The topological order is the greedy one

Between the loop's turns the counts are those of the unplaced dependencies, and
the ready names are just the names that can come next, in order; so each turn
places the least of them. Names are nonempty, as the registry asks for: an
empty one would end the loop.

`Fits` is the loop's invariant: what is ordered is a prefix of the greedy
order, the counts are those of the dependencies not yet placed, and `ready`
lists, in order, the names whose count is 0.

- `count_fold` and `release_fold`: what counting the dependencies of a name
  changes, and releasing its dependents;
- `fits_turn`: one turn places the least ready name;
- `greedy_kahnLoop`: the turns are enough;
- `topologicalOrder_least`: the order has the names that lead to no cycle among
  those selected, once each, dependencies first, and is the least such list.

The greedy order itself is a notion of its own, over any finite relation and
linear order.
-/

namespace DealFlow360.Capabilities

open Events Digraph

/-! ## The built graph -/

/-- The dependencies of the last capability with the name. -/
theorem required_of_fold {capabilities : List CapabilityDefinition} {graph : CapabilityGraph}
    (h : ∀ name, (graph.required name).Nodup) (name : Text) :
    ((capabilities.foldl CapabilityGraph.add graph).required name).Nodup := by
  induction capabilities generalizing graph with
  | nil => exact h name
  | cons capability capabilities ih =>
      refine ih fun other => ?_
      unfold CapabilityGraph.required CapabilityGraph.add Adjacency.get Adjacency.set
      rw [Table.lookup_upsert]
      split
      · exact nodup_uniqueSortedNames _
      · exact h other

theorem nodup_required (capabilities : List CapabilityDefinition) (name : Text) :
    ((buildCapabilityGraph capabilities).required name).Nodup :=
  @required_of_fold _ emptyGraph (fun _ => List.nodup_nil) name

/-- `selected`. -/
def selectedNames (graph : CapabilityGraph) (names : List Text) : List Text :=
  (uniqueSortedNames names).filter fun name => (graph.adjacency.get name).isSome

theorem mem_selectedNames {graph : CapabilityGraph} {names : List Text} {name : Text} :
    name ∈ selectedNames graph names ↔ name ∈ names ∧ (graph.adjacency.get name).isSome := by
  unfold selectedNames
  rw [List.mem_filter, mem_uniqueSortedNames]

theorem sorted_selectedNames (graph : CapabilityGraph) (names : List Text) :
    (selectedNames graph names).Pairwise (· < ·) :=
  (sorted_uniqueSortedNames names).filter _

theorem topologicalOrder_eq (graph : CapabilityGraph) (names : List Text) :
    topologicalOrder graph names =
      (kahnLoop (selectedNames graph names).length (kahnStart graph (selectedNames graph names))).ordered := rfl

/-! ## Sorted insertion -/

theorem insertSorted_eq (names : List Text) (name : Text) :
    insertSorted names name = names.orderedInsert (· ≤ ·) name := by
  have hrel (other : Text) : decide (compareCapabilityNames other name < 0) = decide (¬name ≤ other) :=
    decide_eq_decide.mpr (compareCapabilityNames_neg.trans not_le.symm)
  unfold insertSorted
  rw [List.orderedInsert_eq_take_drop]
  simp only [hrel]

theorem mem_insertSorted {names : List Text} {name other : Text} :
    other ∈ insertSorted names name ↔ other = name ∨ other ∈ names := by
  rw [insertSorted_eq, List.mem_orderedInsert]

theorem sorted_insertSorted {names : List Text} {name : Text} (h : names.Pairwise (· < ·)) (hnew : name ∉ names) :
    (insertSorted names name).Pairwise (· < ·) := by
  rw [insertSorted_eq]
  have hle := (h.imp fun hlt => le_of_lt hlt).orderedInsert name names
  have hnodup : (names.orderedInsert (· ≤ ·) name).Nodup :=
    (List.perm_orderedInsert _ _ _).nodup_iff.mpr
      (List.nodup_cons.mpr ⟨hnew, h.imp fun hlt => ne_of_lt hlt⟩)
  exact hle.imp₂ (fun _ _ hle hne => lt_of_le_of_ne hle hne) hnodup

/-! ## The counts -/

/-- How many of `dependencies` are nodes and not placed. -/
def unplaced (nodes placed dependencies : List Text) : ℕ :=
  dependencies.countP fun dependency => dependency ∈ nodes ∧ dependency ∉ placed

theorem unplaced_eq_zero {nodes placed dependencies : List Text} :
    unplaced nodes placed dependencies = 0 ↔ ∀ y ∈ dependencies, y ∈ nodes → y ∈ placed := by
  unfold unplaced
  rw [List.countP_eq_zero]
  refine forall₂_congr fun y _ => ?_
  rw [decide_eq_true_iff, not_and, not_not]

/-- Placing one more node. -/
theorem unplaced_append {nodes placed dependencies : List Text} {current : Text} (hnodup : dependencies.Nodup)
    (hnode : current ∈ nodes) (hleft : current ∉ placed) :
    unplaced nodes (placed ++ [current]) dependencies + (if current ∈ dependencies then 1 else 0) =
      unplaced nodes placed dependencies := by
  unfold unplaced
  induction dependencies with
  | nil => rfl
  | cons y dependencies ih =>
      obtain ⟨hy, hnodup⟩ := List.nodup_cons.mp hnodup
      have hih := ih hnodup
      rw [List.countP_cons, List.countP_cons]
      by_cases hcurrent : current = y
      · subst hcurrent
        rw [if_neg hy] at hih
        rw [if_pos List.mem_cons_self, if_neg, if_pos]
        · omega
        · exact decide_eq_true ⟨hnode, hleft⟩
        · exact fun h => (of_decide_eq_true h).2 (List.mem_append_right _ List.mem_cons_self)
      · have hmem : (current ∈ y :: dependencies) ↔ current ∈ dependencies := by
          rw [List.mem_cons, or_iff_right hcurrent]
        have hplaced : (y ∈ nodes ∧ y ∉ placed ++ [current]) ↔ y ∈ nodes ∧ y ∉ placed := by
          rw [List.mem_append, List.mem_singleton, or_iff_left (Ne.symm hcurrent)]
        rw [if_congr hmem rfl rfl, decide_eq_decide.mpr hplaced]
        omega

/-! ## The start -/

/-- What counting the dependencies of one name changes. -/
theorem count_fold {selected dependencies : List Text} {name : Text} {state counted : Kahn}
    (h : dependencies.foldl (fun (state : Kahn) dependency =>
      if dependency ∈ selected then state.count name dependency else state) state = counted) :
    (∀ x, counted.indegree x = state.indegree x + if x = name then (unplaced selected [] dependencies : ℤ) else 0) ∧
      (∀ x y, x ∈ counted.dependents y ↔ x ∈ state.dependents y ∨ x = name ∧ y ∈ dependencies ∧ y ∈ selected) ∧
      counted.ordered = state.ordered := by
  subst h
  induction dependencies generalizing state with
  | nil =>
      refine ⟨fun x => ?_, fun x y => ?_, rfl⟩
      · rw [List.foldl_nil]
        split <;> exact (Int.add_zero _).symm
      · rw [List.foldl_nil]
        exact ⟨Or.inl, fun h => h.elim id fun h => nomatch h.2.1⟩
  | cons dependency dependencies ih =>
      rw [List.foldl_cons]
      by_cases hmem : dependency ∈ selected
      · rw [if_pos hmem]
        obtain ⟨hdegree, hdependents, hordered⟩ := @ih (state.count name dependency)
        refine ⟨fun x => ?_, fun x y => ?_, hordered⟩
        · rw [hdegree]
          have hcount : unplaced selected [] (dependency :: dependencies) = unplaced selected [] dependencies + 1 :=
            List.countP_cons_of_pos (decide_eq_true ⟨hmem, List.not_mem_nil⟩)
          by_cases hx : x = name
          · subst hx
            rw [if_pos rfl, if_pos rfl, hcount]
            show Function.update state.indegree x (state.indegree x + 1) x + _ = _
            rw [Function.update_self]
            omega
          · rw [if_neg hx, if_neg hx]
            show Function.update state.indegree name (state.indegree name + 1) x + _ = _
            rw [Function.update_of_ne hx]
        · rw [hdependents]
          show x ∈ Function.update state.dependents dependency (state.dependents dependency ++ [name]) y ∨ _ ↔ _
          by_cases hy : y = dependency
          · subst hy
            rw [Function.update_self, List.mem_append, List.mem_singleton]
            have hself : y ∈ y :: dependencies := List.mem_cons_self
            tauto
          · rw [Function.update_of_ne hy, List.mem_cons, or_iff_right hy]
      · rw [if_neg hmem]
        obtain ⟨hdegree, hdependents, hordered⟩ := @ih state
        have hcount : unplaced selected [] (dependency :: dependencies) = unplaced selected [] dependencies :=
          List.countP_cons_of_neg fun h => hmem (of_decide_eq_true h).1
        refine ⟨fun x => by rw [hdegree, hcount], fun x y => ?_, hordered⟩
        rw [hdependents, List.mem_cons]
        have hne : y ∈ selected → y ≠ dependency := fun hy heq => hmem (heq ▸ hy)
        tauto

theorem count_folds {graph : CapabilityGraph} {selected names : List Text} {state counted : Kahn} (hnodup : names.Nodup)
    (h : names.foldl (fun state name => (graph.required name).foldl (fun (state : Kahn) dependency =>
      if dependency ∈ selected then state.count name dependency else state) state) state = counted) :
    (∀ x, counted.indegree x =
        state.indegree x + if x ∈ names then (unplaced selected [] (graph.required x) : ℤ) else 0) ∧
      (∀ x y, x ∈ counted.dependents y ↔ x ∈ state.dependents y ∨ x ∈ names ∧ y ∈ graph.required x ∧ y ∈ selected) ∧
      counted.ordered = state.ordered := by
  induction names generalizing state with
  | nil =>
      subst h
      refine ⟨fun x => ?_, fun x y => ?_, rfl⟩
      · rw [List.foldl_nil, if_neg List.not_mem_nil, Int.add_zero]
      · rw [List.foldl_nil]
        exact ⟨Or.inl, fun h => h.elim id fun h => nomatch h.1⟩
  | cons name names ih =>
      obtain ⟨hname, hnodup⟩ := List.nodup_cons.mp hnodup
      rw [List.foldl_cons] at h
      obtain ⟨hfirst, hfirstDependents, hfirstOrdered⟩ := @count_fold selected (graph.required name) name state _ rfl
      obtain ⟨hdegree, hdependents, hordered⟩ := ih hnodup h
      refine ⟨fun x => ?_, fun x y => ?_, hordered.trans hfirstOrdered⟩
      · rw [hdegree, hfirst]
        by_cases hx : x = name
        · subst hx
          rw [if_pos rfl, if_neg hname, if_pos List.mem_cons_self, Int.add_zero]
        · have hmem : (x ∈ name :: names) ↔ x ∈ names := by rw [List.mem_cons, or_iff_right hx]
          rw [if_neg hx, if_congr hmem rfl rfl, Int.add_zero]
      · rw [hdependents, hfirstDependents, List.mem_cons]
        by_cases hx : x = name
        · subst hx
          tauto
        · tauto

/-! ## The loop -/

/-- Between the loop's turns. -/
structure Fits (nodes : List Text) (next : Text → List Text) (state : Kahn) : Prop where
  closed : ∀ x ∈ state.ordered, ∀ y ∈ next x, y ∈ nodes → y ∈ state.ordered
  indegree : ∀ x ∈ nodes, state.indegree x = (unplaced nodes state.ordered (next x) : ℤ)
  dependents : ∀ y ∈ nodes, ∀ x, x ∈ state.dependents y ↔ x ∈ nodes ∧ y ∈ next x
  once : ∀ y, (state.dependents y).Nodup
  ready : ∀ x, x ∈ state.ready ↔ Ready nodes next state.ordered x
  sorted : state.ready.Pairwise (· < ·)

theorem ready_iff {nodes placed : List Text} {next : Text → List Text} {x : Text} :
    Ready nodes next placed x ↔ x ∈ nodes ∧ x ∉ placed ∧ unplaced nodes placed (next x) = 0 := by
  rw [unplaced_eq_zero]
  exact ⟨fun h => ⟨h.mem, h.left, h.after⟩, fun ⟨hmem, hleft, hafter⟩ => ⟨hmem, hleft, hafter⟩⟩

theorem fits_start {graph : CapabilityGraph} {selected : List Text} (hsorted : selected.Pairwise (· < ·)) :
    Fits selected graph.required (kahnStart graph selected) ∧ (kahnStart graph selected).ordered = [] := by
  have hnodup : selected.Nodup := hsorted.imp fun hlt => ne_of_lt hlt
  obtain ⟨hdegree, hdependents, hordered⟩ :=
    @count_folds graph selected selected
      { indegree := fun _ => 0, dependents := fun _ => [], ready := [], ordered := [] } _ hnodup rfl
  have hall (x : Text) (hx : x ∈ selected) :
      (kahnStart graph selected).indegree x = (unplaced selected [] (graph.required x) : ℤ) := by
    rw [← Int.zero_add (unplaced _ _ _ : ℤ), ← if_pos (c := x ∈ selected) hx (t := (unplaced _ _ _ : ℤ))]
    exact hdegree x
  have hplaced : (kahnStart graph selected).ordered = [] := hordered
  refine ⟨?_, hplaced⟩
  exact {
    closed := fun x hx => by
      rw [hplaced] at hx
      cases hx
    indegree := fun x hx => by rw [hplaced, hall x hx]
    dependents := fun y hy x => by
      show x ∈ uniqueSortedNames _ ↔ _
      rw [mem_uniqueSortedNames, hdependents]
      exact ⟨fun h => h.elim (fun h => nomatch h) fun h => ⟨h.1, h.2.1⟩, fun h => .inr ⟨h.1, h.2, hy⟩⟩
    once := fun y => nodup_uniqueSortedNames _
    ready := fun x => by
      rw [ready_iff, hplaced]
      show x ∈ selected.filter _ ↔ _
      rw [List.mem_filter, decide_eq_true_iff]
      refine and_congr_right fun hx => ?_
      show (kahnStart graph selected).indegree x = 0 ↔ _
      rw [hall x hx, Int.natCast_eq_zero, and_iff_right List.not_mem_nil]
    sorted := hsorted.filter _ }

/-- What releasing the dependents of one name changes. -/
theorem release_fold {dependents : List Text} {state : Kahn} (hnodup : dependents.Nodup)
    (hnew : ∀ x ∈ dependents, x ∉ state.ready) (hsorted : state.ready.Pairwise (· < ·)) :
    (∀ x, (dependents.foldl Kahn.release state).indegree x = state.indegree x - if x ∈ dependents then 1 else 0) ∧
      (∀ x, x ∈ (dependents.foldl Kahn.release state).ready ↔
        x ∈ state.ready ∨ x ∈ dependents ∧ state.indegree x = 1) ∧
      (dependents.foldl Kahn.release state).ready.Pairwise (· < ·) ∧
      (dependents.foldl Kahn.release state).dependents = state.dependents ∧
      (dependents.foldl Kahn.release state).ordered = state.ordered := by
  induction dependents generalizing state with
  | nil =>
      refine ⟨fun x => ?_, fun x => ?_, hsorted, rfl, rfl⟩
      · rw [List.foldl_nil, if_neg List.not_mem_nil, Int.sub_zero]
      · rw [List.foldl_nil]
        exact ⟨Or.inl, fun h => h.elim id fun h => nomatch h.1⟩
  | cons dependent dependents ih =>
      obtain ⟨hfirst, hnodup⟩ := List.nodup_cons.mp hnodup
      have hready (x : Text) : x ∈ (state.release dependent).ready ↔
          x ∈ state.ready ∨ x = dependent ∧ state.indegree x = 1 := by
        show x ∈ (if state.indegree dependent - 1 = 0 then insertSorted state.ready dependent else state.ready) ↔ _
        split
        · next hzero =>
            rw [mem_insertSorted, or_comm]
            refine or_congr_right (iff_self_and.mpr ?_)
            rintro rfl
            omega
        · next hzero =>
            refine iff_self_or.mpr ?_
            rintro ⟨rfl, hone⟩
            exact absurd hone (by omega)
      have hdegree (x : Text) : (state.release dependent).indegree x =
          state.indegree x - if x = dependent then 1 else 0 := by
        show Function.update state.indegree dependent (state.indegree dependent - 1) x = _
        by_cases hx : x = dependent
        · subst hx
          rw [Function.update_self, if_pos rfl]
        · rw [Function.update_of_ne hx, if_neg hx, Int.sub_zero]
      have hsortedFirst : (state.release dependent).ready.Pairwise (· < ·) := by
        show (if state.indegree dependent - 1 = 0 then insertSorted state.ready dependent else state.ready).Pairwise _
        split
        · exact sorted_insertSorted hsorted (hnew dependent List.mem_cons_self)
        · exact hsorted
      have hnewRest : ∀ x ∈ dependents, x ∉ (state.release dependent).ready := by
        intro x hx hmem
        rcases (hready x).mp hmem with hmem | ⟨rfl, -⟩
        · exact hnew x (List.mem_cons_of_mem _ hx) hmem
        · exact hfirst hx
      obtain ⟨hrestDegree, hrestReady, hrestSorted, hrestDependents, hrestOrdered⟩ := ih hnodup hnewRest hsortedFirst
      refine ⟨fun x => ?_, fun x => ?_, hrestSorted, hrestDependents, hrestOrdered⟩
      · rw [List.foldl_cons, hrestDegree, hdegree]
        by_cases hx : x = dependent
        · subst hx
          rw [if_pos rfl, if_neg hfirst, if_pos List.mem_cons_self, Int.sub_zero]
        · rw [if_neg hx, Int.sub_zero]
          exact congrArg (state.indegree x - ·) (if_congr (by rw [List.mem_cons, or_iff_right hx]) rfl rfl)
      · rw [List.foldl_cons, hrestReady, hready, hdegree, List.mem_cons]
        by_cases hx : x = dependent
        · subst hx
          tauto
        · rw [if_neg hx, Int.sub_zero]
          tauto

/-- One turn: the least ready name is placed. -/
theorem fits_turn {nodes : List Text} {next : Text → List Text} {state : Kahn} {current : Text} {ready : List Text}
    (hnext : ∀ x, (next x).Nodup) (h : Fits nodes next state) (hstate : state.ready = current :: ready) :
    Fits nodes next
        ((state.dependents current).foldl Kahn.release { state with ready, ordered := state.ordered ++ [current] }) ∧
      ((state.dependents current).foldl Kahn.release
        { state with ready, ordered := state.ordered ++ [current] }).ordered = state.ordered ++ [current] := by
  have hcurrent : Ready nodes next state.ordered current := (h.ready current).mp (hstate ▸ List.mem_cons_self)
  have hsorted := h.sorted
  rw [hstate] at hsorted
  obtain ⟨hleast, hsorted⟩ := List.pairwise_cons.mp hsorted
  have hdependents (x : Text) : x ∈ state.dependents current ↔ x ∈ nodes ∧ current ∈ next x :=
    h.dependents current hcurrent.mem x
  have hstays (x : Text) (hx : current ∈ next x) : ¬Ready nodes next state.ordered x := fun hready =>
    hcurrent.left (hready.after current hx hcurrent.mem)
  have hnew : ∀ x ∈ state.dependents current, x ∉ ready := fun x hx hmem =>
    hstays x ((hdependents x).mp hx).2 ((h.ready x).mp (hstate ▸ List.mem_cons_of_mem _ hmem))
  obtain ⟨hdegree, hready, hsortedAll, hkept, hordered⟩ := @release_fold _
    { state with ready, ordered := state.ordered ++ [current] } (h.once current) hnew hsorted
  dsimp only at hdegree hready hkept hordered
  have hcount (x : Text) : unplaced nodes (state.ordered ++ [current]) (next x) +
      (if current ∈ next x then 1 else 0) = unplaced nodes state.ordered (next x) :=
    unplaced_append (hnext x) hcurrent.mem hcurrent.left
  refine ⟨?_, hordered⟩
  exact {
    closed := fun x hx y hy hnode => by
      rw [hordered] at hx ⊢
      rcases List.mem_append.mp hx with hx | hx
      · exact List.mem_append_left _ (h.closed x hx y hy hnode)
      · obtain rfl := List.mem_singleton.mp hx
        exact List.mem_append_left _ (hcurrent.after y hy hnode)
    indegree := fun x hx => by
      rw [hdegree, hordered]
      have hindegree := h.indegree x hx
      have hcountx := hcount x
      have hmem : x ∈ state.dependents current ↔ current ∈ next x := (hdependents x).trans (and_iff_right hx)
      show state.indegree x - _ = _
      rw [if_congr hmem rfl rfl]
      split at hcountx
      · next hin =>
          rw [if_pos hin]
          omega
      · next hin =>
          rw [if_neg hin]
          omega
    dependents := by
      rw [hkept]
      exact h.dependents
    once := by
      rw [hkept]
      exact h.once
    ready := fun x => by
      rw [hready, hordered]
      show x ∈ ready ∨ x ∈ state.dependents current ∧ state.indegree x = 1 ↔ _
      have hcountx := hcount x
      constructor
      · rintro (hx | ⟨hx, hone⟩)
        · have hbefore : Ready nodes next state.ordered x := (h.ready x).mp (hstate ▸ List.mem_cons_of_mem _ hx)
          refine ⟨hbefore.mem, fun hplaced => ?_, fun y hy hnode => List.mem_append_left _ (hbefore.after y hy hnode)⟩
          rcases List.mem_append.mp hplaced with hplaced | hplaced
          · exact hbefore.left hplaced
          · exact ne_of_lt (hleast x hx) (List.mem_singleton.mp hplaced).symm
        · obtain ⟨hnode, hpoints⟩ := (hdependents x).mp hx
          rw [if_pos hpoints] at hcountx
          have hindegree := h.indegree x hnode
          refine ready_iff.mpr ⟨hnode, fun hplaced => ?_, by omega⟩
          rcases List.mem_append.mp hplaced with hplaced | hplaced
          · exact hcurrent.left (h.closed x hplaced current hpoints hcurrent.mem)
          · obtain rfl := List.mem_singleton.mp hplaced
            exact hstays x hpoints hcurrent
      · intro hx
        obtain ⟨hnode, hleft, hzero⟩ := ready_iff.mp hx
        obtain ⟨hbefore, hne⟩ := not_or.mp (mt List.mem_append.mpr hleft)
        by_cases hpoints : current ∈ next x
        · rw [if_pos hpoints] at hcountx
          have hindegree := h.indegree x hnode
          exact .inr ⟨(hdependents x).mpr ⟨hnode, hpoints⟩, by omega⟩
        · rw [if_neg hpoints] at hcountx
          have hmem : x ∈ state.ready := (h.ready x).mpr (ready_iff.mpr ⟨hnode, hbefore, by omega⟩)
          rw [hstate] at hmem
          rcases List.mem_cons.mp hmem with rfl | hmem
          · exact absurd List.mem_cons_self hne
          · exact .inl hmem
    sorted := hsortedAll }

/-- The turns are enough when there are as many as names are left. -/
theorem greedy_kahnLoop {nodes : List Text} {next : Text → List Text} {state : Kahn} {turns : ℕ}
    (hnodes : nodes.Nodup) (hnames : [] ∉ nodes) (hnext : ∀ x, (next x).Nodup) (h : Fits nodes next state)
    (hturns : unplaced nodes state.ordered nodes ≤ turns) :
    ∃ order, (kahnLoop turns state).ordered = state.ordered ++ order ∧ Greedy nodes next state.ordered order := by
  induction turns generalizing state with
  | zero =>
      refine ⟨[], (List.append_nil _).symm, fun x hx => ?_⟩
      exact hx.left (unplaced_eq_zero.mp (Nat.le_zero.mp hturns) x hx.mem hx.mem)
  | succ turns ih =>
      unfold kahnLoop
      cases hstate : state.ready with
      | nil =>
          refine ⟨[], (List.append_nil _).symm, fun x hx => ?_⟩
          have hmem := (h.ready x).mpr hx
          rw [hstate] at hmem
          cases hmem
      | cons current ready =>
          have hcurrent : Ready nodes next state.ordered current := (h.ready current).mp (hstate ▸ List.mem_cons_self)
          obtain ⟨hfits, hordered⟩ := fits_turn hnext h hstate
          have hplace := unplaced_append hnodes hcurrent.mem hcurrent.left
          rw [if_pos hcurrent.mem] at hplace
          obtain ⟨order, horder, hgreedy⟩ := ih hfits (by rw [hordered]; omega)
          rw [hordered] at horder hgreedy
          dsimp only
          rw [if_neg (fun hempty : current = [] => hnames (hempty ▸ hcurrent.mem)), horder]
          refine ⟨current :: order, by rw [List.append_assoc, List.singleton_append], hcurrent, fun y hy => ?_, hgreedy⟩
          have hmem := (h.ready y).mpr hy
          have hsorted := h.sorted
          rw [hstate] at hmem hsorted
          rcases List.mem_cons.mp hmem with rfl | hmem
          · exact le_refl y
          · exact le_of_lt ((List.pairwise_cons.mp hsorted).1 y hmem)

theorem greedy_topologicalOrder (capabilities : List CapabilityDefinition) {names : List Text} (hnames : [] ∉ names) :
    Greedy (selectedNames (buildCapabilityGraph capabilities) names) (buildCapabilityGraph capabilities).required []
      (topologicalOrder (buildCapabilityGraph capabilities) names) := by
  have hsorted := sorted_selectedNames (buildCapabilityGraph capabilities) names
  obtain ⟨hfits, hstart⟩ := @fits_start (buildCapabilityGraph capabilities) _ hsorted
  obtain ⟨order, horder, hgreedy⟩ := greedy_kahnLoop (hsorted.imp fun hlt => ne_of_lt hlt)
    (fun hempty => hnames (mem_selectedNames.mp hempty).1) (nodup_required capabilities) hfits List.countP_le_length
  rw [hstart] at horder hgreedy
  rwa [topologicalOrder_eq, horder]

/-- Each name comes after those of its dependencies that are selected. -/
def DependenciesFirst (graph : CapabilityGraph) (selected order : List Text) : Prop :=
  ∀ before name after, order = before ++ name :: after →
    ∀ dependency ∈ graph.required name, dependency ∈ selected → dependency ∈ before

/-- The order has, once each, the selected names that lead to no cycle among those selected, dependencies first;
and of all such orders of the same names it is the least. -/
theorem topologicalOrder_least (capabilities : List CapabilityDefinition) (names : List Text) (hnames : [] ∉ names) :
    let graph := buildCapabilityGraph capabilities
    let selected := selectedNames graph names
    let order := topologicalOrder graph names
    order.Nodup ∧
      (∀ name, name ∈ order ↔ name ∈ selected ∧ ¬LeadsToCycle selected graph.required name) ∧
      DependenciesFirst graph selected order ∧
      ∀ other, other.Perm order → DependenciesFirst graph selected other → order ≤ other := by
  intro graph selected order
  have hgreedy : Greedy selected graph.required [] order := greedy_topologicalOrder capabilities hnames
  refine ⟨hgreedy.legal.nodup, fun name => ?_, fun before name after hsplit dependency hpoints hnode => ?_,
    fun other hperm hfirst => ?_⟩
  · rw [hgreedy.mem_iff, grounded_iff_not_leadsToCycle]
  · exact hgreedy.legal.after hsplit hpoints hnode
  · refine hgreedy.le_of_legal (legal_of_ready fun before name after hsplit => ?_) hperm
    have hnodup : other.Nodup := hperm.nodup_iff.mpr hgreedy.legal.nodup
    have hmem : name ∈ order := hperm.mem_iff.mp (hsplit ▸ List.mem_append_right _ List.mem_cons_self)
    rw [hsplit] at hnodup
    rw [List.nil_append]
    exact {
      mem := hgreedy.legal.mem hmem
      left := fun hbefore => (List.nodup_append.mp hnodup).2.2 name hbefore name List.mem_cons_self rfl
      after := hfirst before name after hsplit }

def capabilityWith (name : Text) (dependencies : List Text) : CapabilityDefinition where
  name
  kind := .application
  dependencies
  optionalDependencies := []
  conflicts := []
  environmentRequirements := []
  infrastructureRequirements := []
  providerRequirements := []
  architectureCompatibility := []
  deploymentCompatibility := []

/-- Two capabilities that depend on each other, one that depends on them, and one that depends on none. -/
def loopedCapabilities : List CapabilityDefinition :=
  [capabilityWith (codeUnits "b") [codeUnits "a"], capabilityWith (codeUnits "a") [codeUnits "b"],
    capabilityWith (codeUnits "c") [codeUnits "a", codeUnits "d"], capabilityWith (codeUnits "d") []]

def loopedNames : List Text := loopedCapabilities.map (·.name)

example : topologicalOrder (buildCapabilityGraph loopedCapabilities) loopedNames = [codeUnits "d"] := by decide

end DealFlow360.Capabilities
