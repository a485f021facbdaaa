import Mathlib.Data.List.Forall2
import Mathlib.Data.List.Pairwise

/-!
# Lists

Counting elements that exclude each other, answers that are all there, and
lists compared element by element.

Small facts that Mathlib has no name for, each used by more than one module: a
count of mutually exclusive elements, two `filterMap`s that agree, `Forall₂`
for a list changed in one place, and the two directions in which a separator
ends a front.
-/

namespace Lists

variable {α β : Type*}

/-! ## Counting -/

/-- Elements that no two may have in common are one at most. -/
theorem countP_le_one {p : α → Bool} {r : α → α → Prop} {l : List α} (hl : l.Pairwise r)
    (h : ∀ a ∈ l, ∀ b ∈ l, p a = true → p b = true → ¬r a b) : l.countP p ≤ 1 := by
  induction l with
  | nil => exact Nat.zero_le 1
  | cons a l ih =>
      obtain ⟨ha, hl⟩ := List.pairwise_cons.mp hl
      by_cases hp : p a = true
      · have hnone : l.countP p = 0 := by
          rw [List.countP_eq_zero]
          intro b hb hpb
          exact h a List.mem_cons_self b (List.mem_cons_of_mem _ hb) hp hpb (ha b hb)
        have hone : (a :: l).countP p = 1 := by rw [List.countP_cons_of_pos hp, hnone]
        exact Nat.le_of_eq hone
      · rw [List.countP_cons_of_neg hp]
        exact ih hl fun b hb c hc => h b (List.mem_cons_of_mem _ hb) c (List.mem_cons_of_mem _ hc)

theorem eq_of_one {p : α → Bool} {l : List α} (h : l.countP p ≤ 1) {a b : α} (ha : a ∈ l) (hb : b ∈ l)
    (hpa : p a = true) (hpb : p b = true) : a = b := by
  rw [List.countP_eq_length_filter] at h
  have ha' := List.mem_filter.mpr ⟨ha, hpa⟩
  have hb' := List.mem_filter.mpr ⟨hb, hpb⟩
  match l.filter p, h, ha', hb' with
  | [c], _, ha', hb' => rw [List.mem_singleton.mp ha', List.mem_singleton.mp hb']

/-! ## Answers -/

/-- Where each answer of `g` is there, those of `f` are the same exactly if none is missing. -/
theorem filterMap_map_some_iff {f g : α → Option β} {l : List α} (hg : ∀ x ∈ l, (g x).isSome) :
    (l.filterMap f).map some = l.map g ↔ ∀ x ∈ l, f x = g x := by
  induction l with
  | nil => simp
  | cons x l ih =>
      have htail := ih fun y hy => hg y (List.mem_cons_of_mem _ hy)
      cases hf : f x with
      | none =>
          refine iff_of_false (fun h => ?_) fun h => ?_
          · have hlength := congrArg List.length h
            rw [List.filterMap_cons_none hf, List.length_map, List.length_map, List.length_cons] at hlength
            have hle := List.length_filterMap_le f l
            omega
          · have hsome := hg x List.mem_cons_self
            rw [← h x List.mem_cons_self, hf] at hsome
            cases hsome
      | some y =>
          rw [List.filterMap_cons_some hf, List.map_cons, List.map_cons, List.cons.injEq, htail, List.forall_mem_cons,
            hf]

/-! ## Element by element -/

/-- Lists that differ in one place. -/
theorem forall₂_replaced {r : α → α → Prop} (hrefl : ∀ a, r a a) {a b : α} (h : r a b)
    (before after : List α) : List.Forall₂ r (before ++ a :: after) (before ++ b :: after) := by
  have hsame : ∀ l : List α, List.Forall₂ r l l := fun l => List.forall₂_same.mpr fun x _ => hrefl x
  exact List.rel_append (hsame before) (.cons h (hsame after))

/-- What holds of the second list comes back to the first along the relation. -/
theorem forall_mem_of_forall₂ {r : α → β → Prop} {p : α → Prop} {q : β → Prop} {l : List α} {l' : List β}
    (h : List.Forall₂ r l l') (hback : ∀ {a b}, r a b → q b → p a) (hq : ∀ b ∈ l', q b) : ∀ a ∈ l, p a := by
  induction h with
  | nil =>
      intro a ha
      cases ha
  | @cons first second l l' hfirst _ ih =>
      intro a ha
      rcases List.mem_cons.mp ha with rfl | ha
      · exact hback hfirst (hq second List.mem_cons_self)
      · exact ih (fun b hb => hq b (List.mem_cons_of_mem _ hb)) a ha

/-! ## Separators -/

/-- A separator that is in neither front ends both where it ends one. -/
theorem append_cons_inj {a : α} {front front' rest rest' : List α} (h : a ∉ front) (h' : a ∉ front')
    (heq : front ++ a :: rest = front' ++ a :: rest') : front = front' ∧ rest = rest' := by
  induction front generalizing front' with
  | nil =>
      cases front' with
      | nil => exact ⟨rfl, (List.cons.inj heq).2⟩
      | cons b front' => exact absurd ((List.cons.inj heq).1 ▸ List.mem_cons_self) h'
  | cons b front ih =>
      cases front' with
      | nil => exact absurd ((List.cons.inj heq).1 ▸ List.mem_cons_self) h
      | cons b' front' =>
          obtain ⟨rfl, htail⟩ := List.cons.inj heq
          obtain ⟨rfl, hrest⟩ := ih (fun hmem => h (List.mem_cons_of_mem _ hmem))
            (fun hmem => h' (List.mem_cons_of_mem _ hmem)) htail
          exact ⟨rfl, hrest⟩

/-- A separator that is in neither back begins both where it begins one. -/
theorem append_cons_inj_right {a : α} {front front' rest rest' : List α} (h : a ∉ rest) (h' : a ∉ rest')
    (heq : front ++ a :: rest = front' ++ a :: rest') : front = front' ∧ rest = rest' := by
  have hreverse := congrArg List.reverse heq
  simp only [List.reverse_append, List.reverse_cons, List.append_assoc, List.singleton_append] at hreverse
  obtain ⟨hrest, hfront⟩ := append_cons_inj (fun hmem => h (List.mem_reverse.mp hmem))
    (fun hmem => h' (List.mem_reverse.mp hmem)) hreverse
  exact ⟨List.reverse_injective hfront, List.reverse_injective hrest⟩

end Lists
