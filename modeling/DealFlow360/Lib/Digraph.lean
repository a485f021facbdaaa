import Mathlib.Data.List.Chain
import Mathlib.Data.List.Infix
import Mathlib.Data.Set.Finite.List
import Mathlib.Order.WellFounded

/-!
# Finite directed graphs

A graph is a list of nodes and the nodes each of them points to; only the
arrows that stay among the nodes count. A node is grounded if no path from it
ends in a cycle, which in a finite graph is to be accessible against the
arrows. A cycle is written with its first node once more at its end.

Groundedness is accessibility, so a proof about the nodes an order can place is
an induction. The two notions meet in `grounded_iff_not_leadsToCycle`, by
counting: a path longer than the list of nodes repeats one. `IsCycle` comes
with what algorithms on cycles need, membership, rotation, and that every node
of a cycle leads to it.
-/

namespace Digraph

open Relation

variable {α : Type*} (nodes : List α) (next : α → List α)

/-- An arrow among the nodes. -/
structure Arrow (x y : α) : Prop where
  source : x ∈ nodes
  target : y ∈ nodes
  points : y ∈ next x

/-- Every path from `x` ends. -/
def Grounded (x : α) : Prop := Acc (fun y x => Arrow nodes next x y) x

/-- A path from `x` goes through some node twice. -/
def LeadsToCycle (x : α) : Prop :=
  ∃ y, ReflTransGen (Arrow nodes next) x y ∧ TransGen (Arrow nodes next) y y

/-- A closed path through different nodes, its first node once more at its end. -/
def IsCycle (path : List α) : Prop :=
  ∃ first rest, path = first :: (rest ++ [first]) ∧ (first :: rest).Nodup ∧ path.IsChain (Arrow nodes next)

variable {nodes next}

/-- Only which nodes there are matters. -/
theorem arrow_congr {others : List α} (h : ∀ x, x ∈ nodes ↔ x ∈ others) : Arrow nodes next = Arrow others next := by
  funext x y
  exact propext ⟨fun hxy => ⟨(h x).mp hxy.source, (h y).mp hxy.target, hxy.points⟩,
    fun hxy => ⟨(h x).mpr hxy.source, (h y).mpr hxy.target, hxy.points⟩⟩

theorem leadsToCycle_congr {others : List α} (h : ∀ x, x ∈ nodes ↔ x ∈ others) {x : α} :
    LeadsToCycle nodes next x ↔ LeadsToCycle others next x := by
  unfold LeadsToCycle
  rw [arrow_congr h]

theorem isCycle_congr {others : List α} (h : ∀ x, x ∈ nodes ↔ x ∈ others) {path : List α} :
    IsCycle nodes next path ↔ IsCycle others next path := by
  unfold IsCycle
  rw [arrow_congr h]

theorem acyclic_iff : (∀ x ∈ nodes, ¬LeadsToCycle nodes next x) ↔ ∀ x, ¬TransGen (Arrow nodes next) x x := by
  constructor
  · intro h x hclosed
    obtain ⟨y, hxy, -⟩ := TransGen.head'_iff.mp hclosed
    exact h x hxy.source ⟨x, ReflTransGen.refl, hclosed⟩
  · rintro h x - ⟨y, -, hclosed⟩
    exact h y hclosed

/-! ## Grounded nodes -/

theorem grounded_iff {x : α} : Grounded nodes next x ↔ ∀ y, Arrow nodes next x y → Grounded nodes next y :=
  ⟨fun h _ hxy => h.inv hxy, fun h => ⟨x, h⟩⟩

theorem Grounded.of_path {x y : α} (h : Grounded nodes next x) (hpath : ReflTransGen (Arrow nodes next) x y) :
    Grounded nodes next y := by
  induction hpath with
  | refl => exact h
  | tail _ hlast ih => exact ih.inv hlast

theorem Grounded.not_closed {x : α} (h : Grounded nodes next x) : ¬TransGen (Arrow nodes next) x x := by
  induction h with
  | intro x _ ih =>
      intro hclosed
      obtain ⟨y, hxy, hyx⟩ := TransGen.head'_iff.mp hclosed
      exact ih y hxy (TransGen.tail' hyx hxy)

/-- In a finite graph a node is grounded if and only if it leads to no cycle. -/
theorem grounded_iff_not_leadsToCycle {x : α} : Grounded nodes next x ↔ ¬LeadsToCycle nodes next x := by
  constructor
  · rintro h ⟨y, hpath, hclosed⟩
    exact (h.of_path hpath).not_closed hclosed
  · intro h
    by_cases hx : x ∈ nodes
    swap
    · exact ⟨x, fun y hxy => absurd hxy.source hx⟩
    let Reached := {y // y ∈ nodes ∧ ReflTransGen (Arrow nodes next) x y}
    have hfinite : Finite Reached := (nodes.finite_toSet.subset fun y hy => hy.1).to_subtype
    let after : Reached → Reached → Prop := fun y z => TransGen (Arrow nodes next) z.1 y.1
    have htrans : IsTrans Reached after := ⟨fun _ _ _ hab hbc => hbc.trans hab⟩
    have hirrefl : Std.Irrefl after := ⟨fun y hy => h ⟨y.1, y.2.2, hy⟩⟩
    have hwell : WellFounded after := Finite.wellFounded_of_trans_of_irrefl after
    have hall (y : Reached) : Grounded nodes next y.1 := by
      induction y using hwell.induction with
      | _ y ih =>
          exact ⟨y.1, fun z hyz => ih ⟨z, hyz.target, y.2.2.tail hyz⟩ (TransGen.single hyz)⟩
    exact hall ⟨x, hx, ReflTransGen.refl⟩

/-! ## Cycles -/

theorem IsCycle.mem {path : List α} (h : IsCycle nodes next path) {x : α} (hx : x ∈ path) : x ∈ nodes := by
  obtain ⟨first, rest, rfl, -, hchain⟩ := h
  have hall : ∀ y ∈ rest ++ [first], y ∈ nodes := by
    intro y hy
    obtain ⟨before, after, hsplit⟩ := List.append_of_mem hy
    rw [hsplit] at hchain
    cases before using List.reverseRecOn with
    | nil => exact ((List.isChain_cons_cons.mp hchain).1).target
    | append_singleton before last _ =>
        rw [List.append_assoc, List.singleton_append, ← List.cons_append, List.isChain_append_cons_cons] at hchain
        exact hchain.2.1.target
  rcases List.mem_cons.mp hx with rfl | hx
  · exact hall x (List.mem_append_right _ List.mem_cons_self)
  · exact hall x hx

theorem transGen_of_chain {x y : α} {inner : List α} (h : (x :: (inner ++ [y])).IsChain (Arrow nodes next)) :
    TransGen (Arrow nodes next) x y := by
  induction inner generalizing x with
  | nil => exact TransGen.single (List.isChain_cons_cons.mp h).1
  | cons z inner ih =>
      obtain ⟨hxz, hrest⟩ := List.isChain_cons_cons.mp h
      exact TransGen.head hxz (ih hrest)

/-- Each node of a cycle leads to it. -/
theorem IsCycle.leadsToCycle {path : List α} (h : IsCycle nodes next path) {x : α} (hx : x ∈ path) :
    LeadsToCycle nodes next x := by
  obtain ⟨first, rest, rfl, -, hchain⟩ := h
  refine ⟨first, ?_, transGen_of_chain hchain⟩
  rcases List.mem_cons.mp hx with rfl | hx
  · exact ReflTransGen.refl
  rcases List.mem_append.mp hx with hx | hx
  · obtain ⟨front, back, rfl⟩ := List.append_of_mem hx
    have hsplit : (first :: (front ++ x :: back ++ [first])) = (first :: front) ++ x :: (back ++ [first]) := by
      rw [List.append_assoc, List.cons_append, List.cons_append]
    rw [hsplit] at hchain
    exact (transGen_of_chain (List.isChain_append.mp hchain).2.1).to_reflTransGen
  · rw [List.mem_singleton.mp hx]

/-- A cycle can be begun at each of its nodes. -/
theorem IsCycle.rotate {front back : List α} {x y : α} (h : IsCycle nodes next (x :: (front ++ y :: (back ++ [x])))) :
    IsCycle nodes next (y :: (back ++ x :: (front ++ [y]))) := by
  obtain ⟨first, rest, hpath, hnodup, hchain⟩ := h
  obtain ⟨rfl, hrest⟩ := List.cons.inj hpath
  have hinner : front ++ y :: back = rest := by
    rw [← List.append_left_inj [x], ← hrest, List.append_assoc, List.cons_append]
  subst hinner
  obtain ⟨hfront, hback⟩ := List.isChain_split.mp (show ((x :: front) ++ y :: (back ++ [x])).IsChain _ from hchain)
  refine ⟨y, back ++ x :: front, by rw [List.append_assoc, List.cons_append], ?_, ?_⟩
  · exact List.nodup_append_comm.mp (show ((x :: front) ++ (y :: back)).Nodup from hnodup)
  · exact List.isChain_split.mpr (show ((y :: back) ++ [x]).IsChain _ ∧
      (x :: (front ++ [y])).IsChain _ from ⟨hback, hfront⟩)

end Digraph
