import DealFlow360.Lib.Table
import Mathlib.Data.List.Dedup
import Mathlib.Data.List.Induction

/-!
# Grouping a list by a key

The groups of a list in the order of their first elements, as a loop over a map
from keys to lists makes them. The groups partition the list: each key that
occurs has one group, which holds the elements of that key in their order, so a
quantity that adds up along a list adds up over its groups.

`groups` is what the loop makes of a list, and `mem_groups` says it without the
loop: the elements of each key that occurs, in their order. A quantity that is
additive under concatenation is therefore the same for the list and for its
groups together (`sum_groups`), which is what sums and counts over buckets rest
on.
-/

namespace Grouping

variable {α κ β : Type*} [DecidableEq κ] {key : α → κ}

/-- Put an element at the end of the group of its key. -/
def push (key : α → κ) (groups : List (κ × List α)) (x : α) : List (κ × List α) :=
  let current := ((Table.lookup Prod.fst (key x) groups).map Prod.snd).getD []
  Table.upsert Prod.fst (key x, current ++ [x]) groups

def groups (key : α → κ) (l : List α) : List (κ × List α) := l.foldl (push key) []

theorem groups_concat (l : List α) (x : α) : groups key (l ++ [x]) = push key (groups key l) x := by
  simp [groups]

/-! ## The groups partition the list -/

theorem distinct_groups (l : List α) : Table.Distinct Prod.fst (groups key l) := by
  induction l using List.reverseRecOn with
  | nil => exact List.nodup_nil
  | append_singleton l x ih =>
      rw [groups_concat]
      exact Table.distinct_upsert ih _

theorem lookup_groups (l : List α) (k : κ) :
    ((Table.lookup Prod.fst k (groups key l)).map Prod.snd).getD [] = l.filter fun x => key x = k := by
  induction l using List.reverseRecOn with
  | nil => rfl
  | append_singleton l x ih =>
      rw [groups_concat, List.filter_append]
      unfold push
      dsimp only
      rw [Table.lookup_upsert]
      by_cases hk : key x = k
      · subst hk
        simp [ih]
      · simp [hk, ih]

/-- The groups are the elements of each key that occurs. -/
theorem mem_groups {l : List α} {k : κ} {group : List α} :
    (k, group) ∈ groups key l ↔ k ∈ l.map key ∧ group = l.filter fun x => key x = k := by
  induction l using List.reverseRecOn generalizing k group with
  | nil => simp [groups]
  | append_singleton l x ih =>
      rw [groups_concat]
      unfold push
      dsimp only
      rw [Table.mem_upsert_iff (distinct_groups l), lookup_groups, ih, List.filter_append, List.map_append]
      by_cases hk : key x = k
      · subst hk
        simp
      · simp [hk, Ne.symm hk]

theorem keys_perm (l : List α) : ((groups key l).map Prod.fst).Perm (l.map key).dedup := by
  refine (List.perm_ext_iff_of_nodup (distinct_groups l) (List.nodup_dedup _)).mpr fun k => ?_
  rw [List.mem_dedup, List.mem_map]
  constructor
  · rintro ⟨⟨k', group⟩, hmem, rfl⟩
    exact (mem_groups.mp hmem).1
  · intro hk
    exact ⟨(k, _), mem_groups.mpr ⟨hk, rfl⟩, rfl⟩

theorem groups_perm (l : List α) :
    (groups key l).Perm ((l.map key).dedup.map fun k => (k, l.filter fun x => key x = k)) := by
  have hgroups : groups key l = ((groups key l).map Prod.fst).map fun k => (k, l.filter fun x => key x = k) := by
    rw [List.map_map]
    refine ((List.map_id _).symm.trans (List.map_congr_left ?_))
    rintro ⟨k, group⟩ hmem
    rw [(mem_groups.mp hmem).2]
    rfl
  rw [hgroups]
  exact (keys_perm l).map _

/-! ## What adds up -/

/-- What adds up along a list adds up over its groups. -/
theorem sum_groups [AddCommGroup β] {f : List α → β} (hnil : f [] = 0) (hconcat : ∀ l x, f (l ++ [x]) = f l + f [x])
    (l : List α) : ((groups key l).map fun group => f group.2).sum = f l := by
  induction l using List.reverseRecOn with
  | nil => exact hnil.symm
  | append_singleton l x ih =>
      have hold : ((Table.lookup Prod.fst (key x) (groups key l)).map fun group => f group.2).getD 0 =
          f (((Table.lookup Prod.fst (key x) (groups key l)).map Prod.snd).getD []) := by
        cases Table.lookup Prod.fst (key x) (groups key l) with
        | none => exact hnil.symm
        | some group => rfl
      rw [groups_concat]
      unfold push
      dsimp only
      rw [Table.sum_upsert, ih, hconcat, hold]
      rw [hconcat l x]
      abel

end Grouping
