import DealFlow360.Lib.Digraph
import Mathlib.Data.List.Lex

/-!
# Orders of a graph's nodes

An order is legal if each node comes after those it points to. The greedy order
takes the least node that can come next until none can: it has just the
grounded nodes, and no legal order of them is smaller letter by letter.

`Legal` and `Greedy` are over any type with a linear order and any arrows. An
algorithm that always places the least node whose successors are placed
computes the greedy order; what is known of it is proved here without the
algorithm:

- `Greedy.mem_iff`: it has just the grounded nodes;
- `Greedy.le_of_legal`: no legal order of the same nodes is smaller;
- `Legal.after` and `Legal.grounded`: what a legal order promises.
-/

namespace Digraph

variable {α : Type*} (nodes : List α) (next : α → List α)

/-- `x` can come next: it is left, and the nodes it points to are placed. -/
structure Ready (placed : List α) (x : α) : Prop where
  mem : x ∈ nodes
  left : x ∉ placed
  after : ∀ y ∈ next x, y ∈ nodes → y ∈ placed

/-- The nodes come one after the other when each can. -/
def Legal : List α → List α → Prop
  | _, [] => True
  | placed, x :: order => Ready nodes next placed x ∧ Legal (placed ++ [x]) order

/-- Each time the least node that can come next, until none can. -/
def Greedy [LE α] : List α → List α → Prop
  | placed, [] => ∀ x, ¬Ready nodes next placed x
  | placed, x :: order =>
      Ready nodes next placed x ∧ (∀ y, Ready nodes next placed y → x ≤ y) ∧ Greedy (placed ++ [x]) order

variable {nodes next} {placed order : List α}

/-! ## Legal orders -/

theorem Legal.ready (h : Legal nodes next placed order) {before after : List α} {x : α}
    (horder : order = before ++ x :: after) : Ready nodes next (placed ++ before) x := by
  induction before generalizing placed order with
  | nil =>
      subst horder
      rw [List.append_nil]
      exact h.1
  | cons y before ih =>
      subst horder
      have hready := ih h.2 rfl
      rwa [List.append_assoc, List.singleton_append] at hready

theorem Legal.mem (h : Legal nodes next placed order) {x : α} (hx : x ∈ order) : x ∈ nodes := by
  obtain ⟨before, after, horder⟩ := List.append_of_mem hx
  exact (h.ready horder).mem

theorem Legal.not_placed (h : Legal nodes next placed order) {x : α} (hx : x ∈ order) : x ∉ placed := by
  obtain ⟨before, after, horder⟩ := List.append_of_mem hx
  exact fun hplaced => (h.ready horder).left (List.mem_append_left _ hplaced)

theorem Legal.nodup (h : Legal nodes next placed order) : order.Nodup := by
  induction order generalizing placed with
  | nil => exact List.nodup_nil
  | cons x order ih =>
      exact List.nodup_cons.mpr ⟨fun hx => h.2.not_placed hx (List.mem_append_right _ List.mem_cons_self), ih h.2⟩

theorem legal_of_ready (h : ∀ before x after, order = before ++ x :: after → Ready nodes next (placed ++ before) x) :
    Legal nodes next placed order := by
  induction order generalizing placed with
  | nil => trivial
  | cons x order ih =>
      have hfirst := h [] x order rfl
      rw [List.append_nil] at hfirst
      refine ⟨hfirst, ih fun before y after hsplit => ?_⟩
      have hready := h (x :: before) y after (by rw [hsplit, List.cons_append])
      rwa [List.append_assoc, List.singleton_append]

/-- What a node points to comes before it. -/
theorem Legal.after (h : Legal nodes next [] order) {before after : List α} {x : α}
    (horder : order = before ++ x :: after) {y : α} (hy : y ∈ next x) (hnode : y ∈ nodes) : y ∈ before :=
  (h.ready horder).after y hy hnode

/-- The nodes of a legal order are grounded. -/
theorem Legal.grounded (h : Legal nodes next placed order) (hplaced : ∀ x ∈ placed, Grounded nodes next x) {x : α}
    (hx : x ∈ order) : Grounded nodes next x := by
  induction order generalizing placed with
  | nil => cases hx
  | cons first order ih =>
      have hfirst : Grounded nodes next first :=
        grounded_iff.mpr fun y hy => hplaced y (h.1.after y hy.points hy.target)
      rcases List.mem_cons.mp hx with rfl | hx
      · exact hfirst
      · refine ih h.2 (fun y hy => ?_) hx
        rcases List.mem_append.mp hy with hy | hy
        · exact hplaced y hy
        · rw [List.mem_singleton.mp hy]
          exact hfirst

/-! ## The greedy order -/

theorem Greedy.legal [LE α] (h : Greedy nodes next placed order) : Legal nodes next placed order := by
  induction order generalizing placed with
  | nil => trivial
  | cons x order ih => exact ⟨h.1, ih h.2.2⟩

/-- No grounded node is left out. -/
theorem Greedy.mem_of_grounded [LE α] (h : Greedy nodes next placed order) {x : α} (hx : Grounded nodes next x)
    (hnode : x ∈ nodes) : x ∈ placed ++ order := by
  induction order generalizing placed with
  | nil =>
      rw [List.append_nil]
      induction hx with
      | intro x _ ih =>
          by_contra hleft
          exact h x ⟨hnode, hleft, fun y hy hymem => ih y ⟨hnode, hymem, hy⟩ hymem⟩
  | cons first order ih =>
      have hrest := ih h.2.2
      rwa [List.append_assoc, List.singleton_append] at hrest

/-- The greedy order has just the grounded nodes. -/
theorem Greedy.mem_iff [LE α] (h : Greedy nodes next [] order) {x : α} :
    x ∈ order ↔ x ∈ nodes ∧ Grounded nodes next x :=
  ⟨fun hx => ⟨h.legal.mem hx, h.legal.grounded (fun _ hy => absurd hy List.not_mem_nil) hx⟩,
    fun ⟨hnode, hx⟩ => h.mem_of_grounded hx hnode⟩

/-- No legal order of the same nodes is smaller. -/
theorem Greedy.le_of_legal [LinearOrder α] (h : Greedy nodes next placed order) {other : List α}
    (hother : Legal nodes next placed other) (hperm : other.Perm order) : order ≤ other := by
  induction order generalizing placed other with
  | nil =>
      rw [hperm.eq_nil]
  | cons x order ih =>
      cases other with
      | nil => exact absurd hperm.symm.eq_nil (List.cons_ne_nil _ _)
      | cons y other =>
          rcases (h.2.1 y hother.1).lt_or_eq with hlt | rfl
          · exact le_of_lt (List.Lex.rel hlt)
          · exact List.cons_le_cons x (ih h.2.2 hother.2 hperm.cons_inv)

end Digraph
