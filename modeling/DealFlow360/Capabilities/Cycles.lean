import DealFlow360.Capabilities.RequiredClosure
import Mathlib.Data.List.GetD

/-!
# The reported cycles

The search goes to the depth: the gray names are the path that it stands on,
and `parent` leads back along it, so that a dependency on a gray name closes a
cycle. A name that is finished depends only on names that were finished before
it, unless a cycle was reported; so some cycle is reported just if there is
one. Where the names hold no NUL, which parts them in a cycle's key, the
reported cycle goes through the name, and a name leads to a cycle just if it
leads to a reported one.

The search keeps `Searching`: the gray names are a path, the black ones are
finished, the white ones untouched, and what is reported are cycles of names
that were gray together. `Visits` is its measure, so that the turns given are
enough.

- `isCycle_walk` and `isCycle_canonicalize`: a reported list is a cycle, from
  its least name on;
- `findCircularDependencies_searched`: the search as a whole;
- `findCircularDependencies_eq_nil`: nothing is reported just if no selected
  name leads to a cycle;
- `findCircularDependencies_reports`: a name left out of the order leads to a
  reported cycle, and the other way round;
- `order_and_cycles_agree`: the order and the cycles together, for nonempty
  names.

The general facts about paths and cycles are those of `Lib.Digraph`.
-/

namespace DealFlow360.Capabilities

open Events Digraph Relation

/-! ## Walking back -/

/-- `above` depends on `child`, and is where the search came to it from. -/
def Link (nodes : List Text) (next : Text → List Text) (parent : List (Text × Text)) (child above : Text) : Prop :=
  Arrow nodes next above child ∧ Table.lookup Prod.fst child parent = some (child, above)

section Walk

variable {nodes : List Text} {next : Text → List Text} {parent : List (Text × Text)}

theorem climb_eq {inner : List Text} {backTo cursor : Text} {cycle : List Text} {turns : ℕ}
    (hlinks : (inner ++ [backTo]).IsChain (Link nodes next parent)) (hback : backTo ∉ inner)
    (hnames : [] ∉ inner ++ [backTo]) (hturns : inner.length ≤ turns)
    (hcursor : (inner ++ [backTo]).head? = some cursor) :
    climb parent backTo turns cursor cycle = cycle ++ inner := by
  induction inner generalizing cursor cycle turns with
  | nil =>
      obtain rfl := Option.some.inj hcursor
      rw [List.append_nil]
      cases turns with
      | zero => rfl
      | succ turns =>
          unfold climb
          rw [if_pos rfl]
  | cons x inner ih =>
      obtain rfl := Option.some.inj hcursor
      obtain ⟨hne, hback⟩ := not_or.mp (mt List.mem_cons.mpr hback)
      cases turns with
      | zero => exact absurd hturns (Nat.not_succ_le_zero _)
      | succ turns =>
          unfold climb
          rw [if_neg (Ne.symm hne)]
          have hrest : [] ∉ inner ++ [backTo] := fun h => hnames (List.mem_cons_of_mem _ h)
          obtain ⟨above, habove⟩ : ∃ above, (inner ++ [backTo]).head? = some above :=
            Option.isSome_iff_exists.mp
              (List.isSome_head?.mpr (List.append_ne_nil_of_right_ne_nil _ (List.cons_ne_nil _ _)))
          obtain ⟨after, hafter⟩ : ∃ after, inner ++ [backTo] = above :: after := List.head?_eq_some_iff.mp habove
          have hchain : (x :: (inner ++ [backTo])).IsChain (Link nodes next parent) := hlinks
          have hlink : Link nodes next parent x above := by
            rw [hafter] at hchain
            exact (List.isChain_cons_cons.mp hchain).1
          rw [hlink.2, Option.map_some]
          cases above with
          | nil => exact absurd (hafter ▸ List.mem_cons_self) hrest
          | cons unit units =>
              dsimp only
              rw [ih hchain.tail hback hrest (Nat.le_of_succ_le_succ hturns) habove, List.append_assoc,
                List.singleton_append]

/-- A dependency on a name of the path closes a cycle. -/
theorem isCycle_walk {gray : List Text} {node dependency : Text} (hlinks : gray.IsChain (Link nodes next parent))
    (hnodup : gray.Nodup) (hnames : [] ∉ gray) (hhead : gray.head? = some node)
    (harrow : Arrow nodes next node dependency)
    (hmem : dependency ∈ gray) :
    IsCycle nodes next (walkCycle parent node dependency) ∧ node ∈ walkCycle parent node dependency := by
  obtain ⟨inner, below, hgray, hback⟩ := List.eq_append_cons_of_mem hmem
  have hsplit : gray = (inner ++ [dependency]) ++ below := by rw [hgray, List.append_assoc, List.singleton_append]
  rw [hsplit] at hlinks hnames hnodup
  have hchain := (List.isChain_append.mp hlinks).1
  have hinner : (inner ++ [dependency]).Nodup := (List.nodup_append.mp hnodup).1
  have hcursor : (inner ++ [dependency]).head? = some node := by
    cases inner with
    | nil => rwa [hgray] at hhead
    | cons x inner => rwa [hgray] at hhead
  have hlength : inner.length ≤ parent.length + 1 := by
    have hsub : inner ⊆ parent.map Prod.fst := by
      intro x hx
      obtain ⟨front, back, rfl⟩ := List.append_of_mem hx
      rw [List.append_assoc, List.cons_append] at hchain
      obtain ⟨above, after, hafter⟩ : ∃ above after, back ++ [dependency] = above :: after :=
        List.exists_cons_of_ne_nil (List.append_ne_nil_of_right_ne_nil _ (List.cons_ne_nil _ _))
      rw [hafter] at hchain
      have hlink := (List.isChain_cons_cons.mp (List.isChain_append.mp hchain).2.1).1
      exact List.mem_map.mpr ⟨_, Table.mem_of_lookup hlink.2, rfl⟩
    have hle := ((List.nodup_append.mp hinner).1.subperm hsub).length_le
    rw [List.length_map] at hle
    exact Nat.le_succ_of_le hle
  have hwalk : walkCycle parent node dependency = dependency :: (inner.reverse ++ [dependency]) := by
    unfold walkCycle
    rw [climb_eq hchain hback (fun h => hnames (List.mem_append_left _ h)) hlength hcursor, List.reverse_append,
      List.reverse_append]
    rfl
  have harrows : (dependency :: (inner ++ [dependency])).IsChain (flip (Arrow nodes next)) := by
    obtain ⟨after, hafter⟩ := List.head?_eq_some_iff.mp hcursor
    have hflip : (inner ++ [dependency]).IsChain (flip (Arrow nodes next)) := hchain.imp fun _ _ hlink => hlink.1
    rw [hafter] at hflip ⊢
    exact List.isChain_cons_cons.mpr ⟨harrow, hflip⟩
  have hreverse : (dependency :: (inner ++ [dependency])).reverse = dependency :: (inner.reverse ++ [dependency]) := by
    rw [List.reverse_cons, List.reverse_append]
    rfl
  rw [hwalk]
  refine ⟨⟨dependency, inner.reverse, rfl, ?_, ?_⟩, ?_⟩
  · rw [List.nodup_cons, List.mem_reverse, List.nodup_reverse]
    exact ⟨hback, (List.nodup_append.mp hinner).1⟩
  · rw [← hreverse]
    exact List.isChain_reverse.mpr harrows
  · have hnode : node ∈ inner ++ [dependency] := List.mem_of_head? hcursor
    rcases List.mem_append.mp hnode with hnode | hnode
    · exact List.mem_cons_of_mem _ (List.mem_append_left _ (List.mem_reverse.mpr hnode))
    · rw [List.mem_singleton.mp hnode]
      exact List.mem_cons_self

end Walk

/-! ## The canonical form -/

theorem minIndex_split {names : List Text} (hne : names ≠ []) :
    ∃ front least back, names = front ++ least :: back ∧ minIndex names = front.length ∧ ∀ x ∈ names, least ≤ x := by
  have hfold (n : ℕ) (hn : n ≤ names.length) :
      (List.range n).foldl (fun least index =>
          if compareCapabilityNames (names.getD index []) (names.getD least []) < 0 then index else least) 0 <
            names.length ∧
        ∀ index < n, names.getD ((List.range n).foldl (fun least index =>
          if compareCapabilityNames (names.getD index []) (names.getD least []) < 0 then index else least) 0) [] ≤
            names.getD index [] := by
    induction n with
    | zero => exact ⟨List.length_pos_iff.mpr hne, fun index hindex => absurd hindex (Nat.not_lt_zero _)⟩
    | succ n ih =>
        obtain ⟨hlt, hleast⟩ := ih (Nat.le_of_succ_le hn)
        rw [List.range_succ, List.foldl_append, List.foldl_cons, List.foldl_nil]
        split
        · next hless =>
            have hless := compareCapabilityNames_neg.mp hless
            refine ⟨hn, fun index hindex => ?_⟩
            rcases Nat.lt_succ_iff_lt_or_eq.mp hindex with hindex | rfl
            · exact (le_of_lt hless).trans (hleast index hindex)
            · exact le_refl _
        · next hless =>
            refine ⟨hlt, fun index hindex => ?_⟩
            rcases Nat.lt_succ_iff_lt_or_eq.mp hindex with hindex | rfl
            · exact hleast index hindex
            · exact le_of_not_gt (mt compareCapabilityNames_neg.mpr hless)
  obtain ⟨hlt, hleast⟩ : minIndex names < names.length ∧
      ∀ index < names.length, names.getD (minIndex names) [] ≤ names.getD index [] := hfold names.length (le_refl _)
  refine ⟨names.take (minIndex names), names[minIndex names], names.drop (minIndex names + 1), ?_, ?_, fun x hx => ?_⟩
  · rw [← List.drop_eq_getElem_cons hlt, List.take_append_drop]
  · rw [List.length_take_of_le (le_of_lt hlt)]
  · obtain ⟨index, hindex, rfl⟩ := List.getElem_of_mem hx
    have hle := hleast index hindex
    rwa [List.getD_eq_getElem _ _ hlt, List.getD_eq_getElem _ _ hindex] at hle

/-- A cycle begun at its least name. -/
theorem isCycle_canonicalize {nodes : List Text} {next : Text → List Text} {path : List Text}
    (h : IsCycle nodes next path) :
    IsCycle nodes next (canonicalizeCycle path) ∧
      (∀ least, (canonicalizeCycle path).head? = some least → ∀ x ∈ canonicalizeCycle path, least ≤ x) ∧
      ∀ x ∈ path, x ∈ canonicalizeCycle path := by
  have hpath := h
  obtain ⟨first, rest, rfl, -, -⟩ := h
  have hlong : ¬(first :: (rest ++ [first])).length < 2 := by
    rw [List.length_cons, List.length_append]
    simp
  have hbody : (first :: (rest ++ [first])).dropLast = first :: rest := by
    rw [← List.cons_append, List.dropLast_concat]
  obtain ⟨front, least, back, hsplit, hindex, hleast⟩ := minIndex_split (List.cons_ne_nil first rest)
  have hcanonical : canonicalizeCycle (first :: (rest ++ [first])) = least :: (back ++ (front ++ [least])) := by
    unfold canonicalizeCycle
    rw [if_neg hlong, hbody]
    dsimp only
    rw [hindex, hsplit, List.drop_left, List.take_left, List.getD_append_right _ _ _ _ (le_refl _), Nat.sub_self,
      List.append_assoc]
    rfl
  have hmem : ∀ x, x ∈ least :: (back ++ (front ++ [least])) ↔ x ∈ first :: rest := by
    intro x
    rw [hsplit]
    simp only [List.mem_cons, List.mem_append, List.not_mem_nil, or_false]
    tauto
  rw [hcanonical]
  refine ⟨?_, ?_, ?_⟩
  · cases front with
    | nil =>
        obtain ⟨rfl, rfl⟩ := List.cons.inj hsplit
        exact hpath
    | cons x front =>
        obtain ⟨rfl, hrest⟩ : first = x ∧ rest = front ++ least :: back := List.cons.inj hsplit
        rw [hrest, List.append_assoc, List.cons_append] at hpath
        exact hpath.rotate
  · intro other hother x hx
    obtain rfl := Option.some.inj hother
    exact hleast x ((hmem x).mp hx)
  · intro x hx
    rw [hmem]
    rcases List.mem_cons.mp hx with rfl | hx
    · exact List.mem_cons_self
    · rcases List.mem_append.mp hx with hx | hx
      · exact List.mem_cons_of_mem _ hx
      · rw [List.mem_singleton.mp hx]
        exact List.mem_cons_self

theorem cycleKey_injective {cycle other : List Text} (hcycle : cycle ≠ []) (hother : other ≠ [])
    (hzero : ∀ name ∈ cycle, 0 ∉ name) (hzero' : ∀ name ∈ other, 0 ∉ name) (h : cycleKey cycle = cycleKey other) :
    cycle = other := by
  unfold cycleKey at h
  calc cycle = ([0].intercalate cycle).splitOn 0 := (List.splitOn_intercalate 0 hzero hcycle).symm
    _ = ([0].intercalate other).splitOn 0 := by rw [h]
    _ = other := List.splitOn_intercalate 0 hzero' hother

/-! ## The search -/

/-- A cycle is reported, and goes through `x` unless some name holds a NUL. -/
def Reported (nodes : List Text) (cycles : List (List Text)) (x : Text) : Prop :=
  ∃ cycle ∈ cycles, (∀ name ∈ nodes, 0 ∉ name) → x ∈ cycle

theorem Reported.mono {nodes : List Text} {cycles more : List (List Text)} {x : Text} (h : Reported nodes cycles x)
    (hmore : cycles <+: more) : Reported nodes more x := by
  obtain ⟨cycle, hcycle, hmem⟩ := h
  exact ⟨cycle, hmore.subset hcycle, hmem⟩

/-- What holds whenever the search has a name entered or left. -/
structure Searching (nodes : List Text) (next : Text → List Text) (state : CycleSearch) : Prop where
  colored : ∀ x, x ∈ nodes ↔ x ∈ state.white ∨ x ∈ state.gray ∨ x ∈ state.black
  white : state.white.Nodup
  gray : state.gray.Nodup
  apart : ∀ x ∈ state.white, x ∉ state.gray
  links : state.gray.IsChain (Link nodes next state.parent)
  finished : ∀ before x after, state.black = before ++ x :: after →
    ∀ y, Arrow nodes next x y → y ∈ before ∨ Reported nodes state.cycles x
  cycles : ∀ cycle ∈ state.cycles, IsCycle nodes next cycle ∧ ∀ least, cycle.head? = some least → ∀ x ∈ cycle, least ≤ x
  seen : state.seen = state.cycles.map cycleKey
  once : state.seen.Nodup

/-- What the search keeps while it visits a name. -/
structure Grows (before after : CycleSearch) : Prop where
  gray : after.gray = before.gray
  black : before.black <+: after.black
  cycles : before.cycles <+: after.cycles
  white : after.white.Sublist before.white
  parent : ∀ x, x ∉ before.white → Table.lookup Prod.fst x after.parent = Table.lookup Prod.fst x before.parent

theorem Grows.refl (state : CycleSearch) : Grows state state :=
  ⟨rfl, List.prefix_refl _, List.prefix_refl _, List.Sublist.refl _, fun _ _ => rfl⟩

theorem Grows.trans {first second third : CycleSearch} (h : Grows first second) (h' : Grows second third) :
    Grows first third where
  gray := h'.gray.trans h.gray
  black := h.black.trans h'.black
  cycles := h.cycles.trans h'.cycles
  white := h'.white.trans h.white
  parent x hx := (h'.parent x fun hwhite => hx (h.white.subset hwhite)).trans (h.parent x hx)

section Search

variable {graph : CapabilityGraph} {nodes : List Text} {state : CycleSearch}

theorem searching_report {next : Text → List Text} {node dependency : Text} (hnames : [] ∉ nodes)
    (h : Searching nodes next state) (hhead : state.gray.head? = some node) (harrow : Arrow nodes next node dependency)
    (hmem : dependency ∈ state.gray) :
    Searching nodes next (state.report node dependency) ∧ Grows state (state.report node dependency) ∧
      Reported nodes (state.report node dependency).cycles node := by
  have hempty : [] ∉ state.gray := fun hgray => hnames ((h.colored []).mpr (.inr (.inl hgray)))
  obtain ⟨hwalk, hnode⟩ := isCycle_walk h.links h.gray hempty hhead harrow hmem
  obtain ⟨hcycle, hleast, hkept⟩ := isCycle_canonicalize hwalk
  generalize hcanonical : canonicalizeCycle (walkCycle state.parent node dependency) = canonical at hcycle hleast hkept
  have hreport : state.report node dependency =
      if cycleKey canonical ∈ state.seen then state
      else { state with seen := state.seen ++ [cycleKey canonical], cycles := state.cycles ++ [canonical] } := by
    rw [← hcanonical]
    rfl
  rw [hreport]
  split
  · next hseen =>
      refine ⟨h, Grows.refl state, ?_⟩
      rw [h.seen] at hseen
      obtain ⟨cycle, hreported, hkey⟩ := List.mem_map.mp hseen
      have hnonempty {path : List Text} (hpath : IsCycle nodes next path) : path ≠ [] := by
        obtain ⟨first, rest, rfl, -, -⟩ := hpath
        exact List.cons_ne_nil _ _
      have hother := (h.cycles cycle hreported).1
      refine ⟨cycle, hreported, fun hzero => ?_⟩
      have hsame : cycle = canonical := cycleKey_injective (hnonempty hother) (hnonempty hcycle)
        (fun name hname => hzero name (hother.mem hname)) (fun name hname => hzero name (hcycle.mem hname)) hkey
      exact hsame ▸ hkept node hnode
  · next hseen =>
      refine ⟨?_, ⟨rfl, List.prefix_refl _, List.prefix_append _ _, List.Sublist.refl _, fun _ _ => rfl⟩,
        canonical, List.mem_append_right _ List.mem_cons_self, fun _ => hkept node hnode⟩
      exact {
        colored := h.colored
        white := h.white
        gray := h.gray
        apart := h.apart
        links := h.links
        finished := fun before x after hblack y hpoints =>
          (h.finished before x after hblack y hpoints).imp_right fun hreported =>
            hreported.mono (List.prefix_append _ _)
        cycles := fun cycle hreported => by
          rcases List.mem_append.mp hreported with hreported | hreported
          · exact h.cycles cycle hreported
          · rw [List.mem_singleton.mp hreported]
            exact ⟨hcycle, hleast⟩
        seen := by
          show state.seen ++ [cycleKey canonical] = (state.cycles ++ [canonical]).map cycleKey
          rw [List.map_append, h.seen]
          rfl
        once := List.nodup_append.mpr ⟨h.once, List.nodup_singleton _, fun key hkey other hother heq =>
          hseen (List.mem_singleton.mp hother ▸ heq ▸ hkey)⟩ }

theorem searching_enter {next : Text → List Text} {node : Text} (h : Searching nodes next state)
    (hnode : node ∈ state.white)
    (hlink : ∀ above, state.gray.head? = some above → Link nodes next state.parent node above) :
    Searching nodes next (state.enter node) where
  colored x := by
    show x ∈ nodes ↔ x ∈ state.white.erase node ∨ x ∈ node :: state.gray ∨ x ∈ state.black
    rw [h.colored, h.white.mem_erase_iff, List.mem_cons]
    by_cases hx : x = node
    · subst hx
      tauto
    · tauto
  white := h.white.erase node
  gray := List.nodup_cons.mpr ⟨h.apart node hnode, h.gray⟩
  apart x hx := by
    obtain ⟨hne, hx⟩ := h.white.mem_erase_iff.mp hx
    exact List.not_mem_cons_of_ne_of_not_mem hne (h.apart x hx)
  links := by
    show (node :: state.gray).IsChain (Link nodes next state.parent)
    cases hgray : state.gray with
    | nil => exact List.isChain_singleton _
    | cons above below =>
        rw [hgray] at hlink
        exact List.isChain_cons_cons.mpr ⟨hlink above rfl, hgray ▸ h.links⟩
  finished := h.finished
  cycles := h.cycles
  seen := h.seen
  once := h.once

theorem searching_leave {next : Text → List Text} {node : Text} {below : List Text} (h : Searching nodes next state)
    (hgray : state.gray = node :: below)
    (hdone : ∀ y, Arrow nodes next node y → y ∈ state.black ∨ Reported nodes state.cycles node) :
    Searching nodes next (state.leave node) ∧ (state.leave node).gray = below := by
  have hleft : (state.leave node).gray = below := by
    show state.gray.erase node = below
    rw [hgray, List.erase_cons_head]
  refine ⟨?_, hleft⟩
  exact {
    colored := fun x => by
      rw [hleft]
      show x ∈ nodes ↔ x ∈ state.white ∨ x ∈ below ∨ x ∈ state.black ++ [node]
      rw [h.colored, hgray, List.mem_cons, List.mem_append, List.mem_singleton]
      tauto
    white := h.white
    gray := by
      rw [hleft]
      exact (List.nodup_cons.mp (hgray ▸ h.gray)).2
    apart := fun x hx hmem => by
      rw [hleft] at hmem
      exact h.apart x hx (hgray ▸ List.mem_cons_of_mem _ hmem)
    links := by
      rw [hleft]
      exact (hgray ▸ h.links).tail
    finished := fun before x after hblack y hpoints => by
      rcases List.eq_nil_or_concat after with rfl | ⟨after, last, rfl⟩
      · obtain ⟨rfl, hx⟩ := List.append_inj' hblack rfl
        obtain ⟨rfl, -⟩ := List.cons.inj hx
        exact hdone y hpoints
      · rw [List.concat_eq_append] at hblack
        have hsplit : state.black ++ [node] = (before ++ x :: after) ++ [last] := by
          rw [List.append_assoc, List.cons_append]
          exact hblack
        exact h.finished before x after (List.append_inj' hsplit rfl).1 y hpoints
    cycles := h.cycles
    seen := h.seen
    once := h.once }

/-- A visit of a white name finishes it, and is back on the path it came from. -/
def Visits (graph : CapabilityGraph) (nodes : List Text) (turns : ℕ) : Prop :=
  ∀ (state : CycleSearch) (node : Text), Searching nodes graph.required state → node ∈ state.white →
    state.white.length ≤ turns →
    (∀ above, state.gray.head? = some above → Link nodes graph.required state.parent node above) →
      Searching nodes graph.required (visit graph nodes turns node state) ∧
        Grows state (visit graph nodes turns node state) ∧ node ∈ (visit graph nodes turns node state).black

theorem searching_explore {turns : ℕ} {node dependency : Text} (hnames : [] ∉ nodes)
    (hvisits : Visits graph nodes turns) (h : Searching nodes graph.required state)
    (hturns : state.white.length ≤ turns)
    (hhead : state.gray.head? = some node) (hpoints : dependency ∈ graph.required node) {explored : CycleSearch}
    (hexplored : explore nodes (visit graph nodes turns) node state dependency = explored) :
    Searching nodes graph.required explored ∧ Grows state explored ∧
      (dependency ∈ nodes → dependency ∈ explored.black ∨ Reported nodes explored.cycles node) := by
  subst hexplored
  unfold explore
  by_cases hscope : dependency ∈ nodes
  swap
  · rw [if_pos hscope]
    exact ⟨h, Grows.refl state, fun hmem => absurd hmem hscope⟩
  rw [if_neg (not_not_intro hscope)]
  by_cases hblack : dependency ∈ state.black
  · rw [if_pos hblack]
    exact ⟨h, Grows.refl state, fun _ => .inl hblack⟩
  rw [if_neg hblack]
  have hnode : node ∈ nodes := (h.colored node).mpr (.inr (.inl (List.mem_of_head? hhead)))
  have harrow : Arrow nodes graph.required node dependency := ⟨hnode, hscope, hpoints⟩
  by_cases hgray : dependency ∈ state.gray
  · rw [if_pos hgray]
    obtain ⟨hsearching, hgrows, hreported⟩ := searching_report hnames h hhead harrow hgray
    exact ⟨hsearching, hgrows, fun _ => .inr hreported⟩
  rw [if_neg hgray]
  have hwhite : dependency ∈ state.white :=
    ((h.colored dependency).mp hscope).resolve_right fun hother => hother.elim hgray hblack
  -- `parent` is set for a white name only, so the path's own links stay.
  have hparent (x : Text) (hx : x ∉ state.white) :
      Table.lookup Prod.fst x (Table.upsert Prod.fst (dependency, node) state.parent) =
        Table.lookup Prod.fst x state.parent :=
    Table.lookup_upsert_of_ne (fun heq : dependency = x => hx (heq ▸ hwhite)) _
  have hset : Searching nodes graph.required
      { state with parent := Table.upsert Prod.fst (dependency, node) state.parent } := {
    colored := h.colored
    white := h.white
    gray := h.gray
    apart := h.apart
    links := h.links.imp_of_mem_imp fun child above hchild _ hlink =>
      ⟨hlink.1, (hparent child fun hwhite => h.apart child hwhite hchild).trans hlink.2⟩
    finished := h.finished
    cycles := h.cycles
    seen := h.seen
    once := h.once }
  obtain ⟨hsearching, hgrows, hfinished⟩ := hvisits _ dependency hset hwhite hturns fun above habove => by
    obtain rfl := Option.some.inj (hhead.symm.trans habove)
    have hlookup : Table.lookup Prod.fst dependency (Table.upsert Prod.fst (dependency, node) state.parent) =
        some (dependency, node) := Table.lookup_upsert_self (dependency, node) state.parent
    exact ⟨harrow, hlookup⟩
  refine ⟨hsearching, ?_, fun _ => .inl hfinished⟩
  exact {
    gray := hgrows.gray
    black := hgrows.black
    cycles := hgrows.cycles
    white := hgrows.white
    parent := fun x hx => (hgrows.parent x hx).trans (hparent x hx) }

theorem searching_dependencies {turns : ℕ} {node : Text} {dependencies : List Text}
    (hnames : [] ∉ nodes) (hvisits : Visits graph nodes turns)
    (h : Searching nodes graph.required state) (hturns : state.white.length ≤ turns)
    (hhead : state.gray.head? = some node) (hpoints : ∀ y ∈ dependencies, y ∈ graph.required node)
    {explored : CycleSearch}
    (hexplored : dependencies.foldl (explore nodes (visit graph nodes turns) node) state = explored) :
    Searching nodes graph.required explored ∧ Grows state explored ∧
      ∀ y ∈ dependencies, y ∈ nodes → y ∈ explored.black ∨ Reported nodes explored.cycles node := by
  induction dependencies generalizing state with
  | nil =>
      subst hexplored
      exact ⟨h, Grows.refl state, fun y hy => absurd hy List.not_mem_nil⟩
  | cons dependency dependencies ih =>
      rw [List.foldl_cons] at hexplored
      obtain ⟨hfirst, hgrows, hdone⟩ :=
        searching_explore hnames hvisits h hturns hhead (hpoints dependency List.mem_cons_self) rfl
      obtain ⟨hrest, hgrowsRest, hdoneRest⟩ := ih hfirst (hgrows.white.length_le.trans hturns) (hgrows.gray ▸ hhead)
        (fun y hy => hpoints y (List.mem_cons_of_mem _ hy)) hexplored
      refine ⟨hrest, hgrows.trans hgrowsRest, fun y hy hscope => ?_⟩
      rcases List.mem_cons.mp hy with rfl | hy
      · exact (hdone hscope).imp (fun hblack => hgrowsRest.black.subset hblack) fun hreported =>
          hreported.mono hgrowsRest.cycles
      · exact hdoneRest y hy hscope

theorem visits (hnames : [] ∉ nodes) (turns : ℕ) : Visits graph nodes turns := by
  induction turns with
  | zero =>
      intro state node h hnode hturns hlink
      rw [List.eq_nil_of_length_eq_zero (Nat.le_zero.mp hturns)] at hnode
      cases hnode
  | succ turns ih =>
      intro state node h hnode hturns hlink
      have hentered := searching_enter h hnode hlink
      have hfewer : (state.enter node).white.length ≤ turns := by
        show (state.white.erase node).length ≤ turns
        rw [List.length_erase_of_mem hnode]
        omega
      obtain ⟨hexplored, hgrows, hdone⟩ := searching_dependencies hnames ih hentered hfewer rfl (fun _ hy => hy) rfl
      obtain ⟨hleft, hgray⟩ := searching_leave hexplored hgrows.gray fun y harrow => hdone y harrow.points harrow.target
      refine ⟨hleft, ?_, List.mem_append_right _ List.mem_cons_self⟩
      exact {
        gray := hgray
        black := hgrows.black.trans (List.prefix_append _ _)
        cycles := hgrows.cycles
        white := hgrows.white.trans List.erase_sublist
        parent := fun x hx => hgrows.parent x fun hmem => hx (List.mem_of_mem_erase hmem) }

theorem searching_scope {names : List Text} (hnames : [] ∉ nodes)
    (h : Searching nodes graph.required state) (hgray : state.gray = []) (hscope : ∀ name ∈ names, name ∈ nodes)
    {searched : CycleSearch} (hsearched : names.foldl (visitIfWhite graph nodes) state = searched)
    (hturns : state.white.length ≤ nodes.length) :
    Searching nodes graph.required searched ∧ Grows state searched ∧ ∀ name ∈ names, name ∈ searched.black := by
  induction names generalizing state with
  | nil =>
      subst hsearched
      exact ⟨h, Grows.refl state, fun name hname => absurd hname List.not_mem_nil⟩
  | cons name names ih =>
      rw [List.foldl_cons] at hsearched
      obtain ⟨hfirst, hgrows, hdone⟩ : Searching nodes graph.required (visitIfWhite graph nodes state name) ∧
          Grows state (visitIfWhite graph nodes state name) ∧ name ∈ (visitIfWhite graph nodes state name).black := by
        unfold visitIfWhite
        by_cases hwhite : name ∈ state.white
        · rw [if_pos hwhite]
          refine visits hnames nodes.length state name h hwhite hturns fun above habove => ?_
          rw [hgray] at habove
          cases habove
        · rw [if_neg hwhite]
          have hcolor := ((h.colored name).mp (hscope name List.mem_cons_self)).resolve_left hwhite
          rw [hgray] at hcolor
          exact ⟨h, Grows.refl state, hcolor.resolve_left List.not_mem_nil⟩
      obtain ⟨hrest, hgrowsRest, hdoneRest⟩ := ih hfirst (hgrows.gray.trans hgray)
        (fun other hother => hscope other (List.mem_cons_of_mem _ hother)) hsearched
        (hgrows.white.length_le.trans hturns)
      refine ⟨hrest, hgrows.trans hgrowsRest, fun other hother => ?_⟩
      rcases List.mem_cons.mp hother with rfl | hother
      · exact hgrowsRest.black.subset hdone
      · exact hdoneRest other hother

/-- A finished name from which no name is reached that has a cycle reported is grounded. -/
theorem grounded_of_unreported {next : Text → List Text} (h : Searching nodes next state) {x : Text}
    (hx : x ∈ state.black)
    (hclear : ∀ y, ReflTransGen (Arrow nodes next) x y → ¬Reported nodes state.cycles y) : Grounded nodes next x := by
  obtain ⟨before, after, hblack⟩ := List.append_of_mem hx
  -- Along the names that were finished before.
  induction hlength : before.length using Nat.strong_induction_on generalizing x before after with
  | _ length ih =>
      refine grounded_iff.mpr fun y hxy => ?_
      have hbefore : y ∈ before := (h.finished before x after hblack y hxy).resolve_right (hclear x ReflTransGen.refl)
      obtain ⟨front, back, rfl⟩ := List.append_of_mem hbefore
      have hsplit : state.black = front ++ y :: (back ++ x :: after) := by
        rw [hblack, List.append_assoc, List.cons_append]
      refine ih front.length ?_ (hsplit ▸ List.mem_append_right _ List.mem_cons_self)
        (fun z hyz => hclear z (ReflTransGen.head hxy hyz)) front _ hsplit rfl
      rw [← hlength, List.length_append, List.length_cons]
      omega

end Search

/-- The search as a whole: what it reports is what it found, and it finished every selected name. -/
theorem findCircularDependencies_searched (graph : CapabilityGraph) {names : List Text}
    (hnames : [] ∉ selectedNames graph names) :
    ∃ searched, Searching (selectedNames graph names) graph.required searched ∧
      (findCircularDependencies graph names).Perm searched.cycles ∧
      ∀ name ∈ selectedNames graph names, name ∈ searched.black := by
  have hnodup : (selectedNames graph names).Nodup := (sorted_selectedNames graph names).imp fun hlt => ne_of_lt hlt
  have hstart : Searching (selectedNames graph names) graph.required
      { white := selectedNames graph names, gray := [], black := [], parent := [], cycles := [], seen := [] } := {
    colored := fun x => by
      dsimp only
      simp only [List.not_mem_nil, or_false]
    white := hnodup
    gray := List.nodup_nil
    apart := fun _ _ => List.not_mem_nil
    links := List.isChain_nil
    finished := fun before x after hblack =>
      absurd hblack.symm (List.append_ne_nil_of_right_ne_nil _ (List.cons_ne_nil _ _))
    cycles := fun cycle hcycle => absurd hcycle List.not_mem_nil
    seen := rfl
    once := List.nodup_nil }
  obtain ⟨hsearched, -, hblack⟩ := searching_scope hnames hstart rfl (fun _ hname => hname) rfl (le_refl _)
  exact ⟨_, hsearched, List.perm_insertionSort _ _, hblack⟩

/-- What is reported are cycles among the selected names, each from its least name on and none twice. -/
theorem findCircularDependencies_cycles (graph : CapabilityGraph) {names : List Text}
    (hnames : [] ∉ selectedNames graph names) :
    (∀ cycle ∈ findCircularDependencies graph names, IsCycle (selectedNames graph names) graph.required cycle ∧
        ∀ least, cycle.head? = some least → ∀ name ∈ cycle, least ≤ name) ∧
      (findCircularDependencies graph names).Nodup := by
  obtain ⟨searched, hsearched, hperm, -⟩ := findCircularDependencies_searched graph hnames
  refine ⟨fun cycle hcycle => hsearched.cycles cycle (hperm.mem_iff.mp hcycle), ?_⟩
  have hkeys := hsearched.once
  rw [hsearched.seen] at hkeys
  exact hperm.nodup_iff.mpr (List.Nodup.of_map _ hkeys)

/-- Nothing is reported just if no selected name leads to a cycle. -/
theorem findCircularDependencies_eq_nil (graph : CapabilityGraph) {names : List Text}
    (hnames : [] ∉ selectedNames graph names) :
    findCircularDependencies graph names = [] ↔
      ∀ name ∈ selectedNames graph names, ¬LeadsToCycle (selectedNames graph names) graph.required name := by
  obtain ⟨searched, hsearched, hperm, hblack⟩ := findCircularDependencies_searched graph hnames
  constructor
  · intro hnone name hname
    refine grounded_iff_not_leadsToCycle.mp
      (grounded_of_unreported hsearched (hblack name hname) fun other _ hreported => ?_)
    obtain ⟨cycle, hcycle, -⟩ := hreported
    have hmem := hperm.mem_iff.mpr hcycle
    rw [hnone] at hmem
    exact absurd hmem List.not_mem_nil
  · intro hfree
    refine List.eq_nil_iff_forall_not_mem.mpr fun cycle hcycle => ?_
    have hreal := ((findCircularDependencies_cycles graph hnames).1 cycle hcycle).1
    obtain ⟨first, rest, rfl, -, -⟩ := id hreal
    exact hfree first (hreal.mem List.mem_cons_self) (hreal.leadsToCycle List.mem_cons_self)

/-- A name of the graph is left out of the order just if it leads to a reported cycle, for names that hold no NUL. -/
theorem findCircularDependencies_reports (capabilities : List CapabilityDefinition) (names : List Text)
    (hknown : ∀ name ∈ names, name ∈ nodeNames (buildCapabilityGraph capabilities))
    (hnames : ∀ name ∈ names, name ≠ [] ∧ 0 ∉ name) :
    let graph := buildCapabilityGraph capabilities
    ∀ name ∈ names, name ∉ topologicalOrder graph names ↔
      ∃ cycle ∈ findCircularDependencies graph names, ∃ other ∈ cycle,
        ReflTransGen (Arrow names graph.required) name other := by
  intro graph name hname
  have hempty : [] ∉ names := fun hmem => (hnames [] hmem).1 rfl
  have hsame (name : Text) : name ∈ selectedNames graph names ↔ name ∈ names :=
    mem_selectedNames.trans (and_iff_left_of_imp fun hname => adjacency_of_known (hknown name hname))
  have horder : name ∈ topologicalOrder graph names ↔
      name ∈ selectedNames graph names ∧ Grounded (selectedNames graph names) graph.required name :=
    (greedy_topologicalOrder capabilities hempty).mem_iff
  obtain ⟨searched, hsearched, hperm, hblack⟩ := @findCircularDependencies_searched graph names fun hmem =>
    hempty ((hsame []).mp hmem)
  rw [horder, and_iff_right ((hsame name).mpr hname), ← arrow_congr hsame]
  constructor
  · intro hlooped
    by_contra hnone
    refine hlooped (grounded_of_unreported hsearched (hblack name ((hsame name).mpr hname)) ?_)
    intro other hpath hreported
    obtain ⟨cycle, hcycle, hmem⟩ := hreported
    have hzero : ∀ name ∈ selectedNames graph names, 0 ∉ name := fun name hname =>
      (hnames name ((hsame name).mp hname)).2
    exact hnone ⟨cycle, hperm.mem_iff.mpr hcycle, other, hmem hzero, hpath⟩
  · rintro ⟨cycle, hcycle, other, hmem, hpath⟩ hgrounded
    have hreal := (hsearched.cycles cycle (hperm.mem_iff.mp hcycle)).1
    exact grounded_iff_not_leadsToCycle.mp (hgrounded.of_path hpath) (hreal.leadsToCycle hmem)

theorem findCircularDependencies_reports_looped :
    codeUnits "c" ∉ topologicalOrder (buildCapabilityGraph loopedCapabilities) loopedNames ↔
      ∃ cycle ∈ findCircularDependencies (buildCapabilityGraph loopedCapabilities) loopedNames, ∃ other ∈ cycle,
        ReflTransGen (Arrow loopedNames (buildCapabilityGraph loopedCapabilities).required) (codeUnits "c") other :=
  findCircularDependencies_reports loopedCapabilities loopedNames (by decide) (by decide) (codeUnits "c") (by decide)

example : findCircularDependencies (buildCapabilityGraph loopedCapabilities) loopedNames =
    [[codeUnits "a", codeUnits "b", codeUnits "a"]] := by decide

/-! ## The order and the cycles together -/

/-- For nonempty names of the graph. The order has, once each, the names that lead to no cycle among the names,
each after its dependencies among them, and is the least such list; what is reported are cycles among the names,
each from its least name on and none twice, and nothing is reported just if there is no cycle; so a name is left
out just if one is reported. -/
theorem order_and_cycles_agree (capabilities : List CapabilityDefinition) (names : List Text)
    (hknown : ∀ name ∈ names, name ∈ nodeNames (buildCapabilityGraph capabilities)) (hnames : [] ∉ names) :
    let graph := buildCapabilityGraph capabilities
    let order := topologicalOrder graph names
    let cycles := findCircularDependencies graph names
    (order.Nodup ∧
        (∀ name, name ∈ order ↔ name ∈ names ∧ ¬LeadsToCycle names graph.required name) ∧
        DependenciesFirst graph names order ∧
        ∀ other : List Text, other.Nodup → (∀ name, name ∈ other ↔ name ∈ order) → DependenciesFirst graph names other →
          order ≤ other) ∧
      (cycles = [] ↔ ∀ name, ¬TransGen (Arrow names graph.required) name name) ∧
      (∀ cycle ∈ cycles, IsCycle names graph.required cycle ∧
        ∀ least, cycle.head? = some least → ∀ name ∈ cycle, least ≤ name) ∧
      cycles.Nodup ∧
      ((∃ name ∈ names, name ∉ order) ↔ cycles ≠ []) := by
  intro graph order cycles
  have hsame (name : Text) : name ∈ selectedNames graph names ↔ name ∈ names :=
    mem_selectedNames.trans (and_iff_left_of_imp fun hname => adjacency_of_known (hknown name hname))
  have hempty : [] ∉ selectedNames graph names := fun hmem => hnames ((hsame []).mp hmem)
  obtain ⟨hnodup, hmem, hfirst, hleast⟩ := topologicalOrder_least capabilities names hnames
  obtain ⟨hcycles, honce⟩ := findCircularDependencies_cycles graph hempty
  have hnone := findCircularDependencies_eq_nil graph hempty
  have horder (name : Text) : name ∈ order ↔ name ∈ names ∧ ¬LeadsToCycle names graph.required name :=
    (hmem name).trans (and_congr (hsame name) (not_congr (leadsToCycle_congr hsame)))
  refine ⟨⟨hnodup, horder, ?_, ?_⟩, ?_, ?_, honce, ?_⟩
  · exact fun before name after hsplit dependency hpoints hnode =>
      hfirst before name after hsplit dependency hpoints ((hsame dependency).mpr hnode)
  · intro other hother hlisted hlegal
    refine hleast other ((List.perm_ext_iff_of_nodup hother hnodup).mpr hlisted) ?_
    exact fun before name after hsplit dependency hpoints hnode =>
      hlegal before name after hsplit dependency hpoints ((hsame dependency).mp hnode)
  · refine hnone.trans (acyclic_iff.trans ?_)
    rw [arrow_congr hsame]
  · exact fun cycle hcycle => ⟨(isCycle_congr hsame).mp (hcycles cycle hcycle).1, (hcycles cycle hcycle).2⟩
  · constructor
    · rintro ⟨name, hname, hout⟩ hnothing
      refine hout ((horder name).mpr ⟨hname, fun hlooped => ?_⟩)
      exact hnone.mp hnothing name ((hsame name).mpr hname) ((leadsToCycle_congr hsame).mpr hlooped)
    · intro hsome
      by_contra hall
      refine hsome (hnone.mpr fun name hname hlooped => hall ⟨name, (hsame name).mp hname, fun hplaced => ?_⟩)
      exact ((horder name).mp hplaced).2 ((leadsToCycle_congr hsame).mp hlooped)

theorem order_and_cycles_agree_looped :
    (∃ name ∈ loopedNames, name ∉ topologicalOrder (buildCapabilityGraph loopedCapabilities) loopedNames) ↔
      findCircularDependencies (buildCapabilityGraph loopedCapabilities) loopedNames ≠ [] :=
  (order_and_cycles_agree loopedCapabilities loopedNames (by decide) (by decide)).2.2.2.2

/-- The loop of the order ends at a name that is empty: it is left out, though it depends on nothing. -/
theorem empty_name_left_out :
    ¬∀ (capabilities : List CapabilityDefinition) (names : List Text),
      (∀ name ∈ names, name ∈ nodeNames (buildCapabilityGraph capabilities)) →
        ∀ name ∈ names, ¬LeadsToCycle names (buildCapabilityGraph capabilities).required name →
          name ∈ topologicalOrder (buildCapabilityGraph capabilities) names := by
  intro h
  have hnone : (buildCapabilityGraph [capabilityWith [] []]).required [] = [] := by decide
  have hfree : ¬LeadsToCycle [[]] (buildCapabilityGraph [capabilityWith [] []]).required [] := by
    refine grounded_iff_not_leadsToCycle.mp (grounded_iff.mpr fun y harrow => ?_)
    have hpoints := harrow.points
    rw [hnone] at hpoints
    exact absurd hpoints List.not_mem_nil
  exact absurd (h [capabilityWith [] []] [[]] (by decide) [] List.mem_cons_self hfree) (by decide)

end DealFlow360.Capabilities
