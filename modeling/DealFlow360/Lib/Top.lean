import Mathlib.Data.List.MinMax
import Mathlib.Data.List.Nodup
import Mathlib.Data.List.Sort
import Mathlib.Data.Prod.Lex

/-!
# The best of a list

`ranked` sorts a list with the higher scores first and leaves equal scores in
their order. The first `k` of a list so sorted are `Best`: another order of
equal scores may give others. Which elements come first is a count: an element
is among the first `k` if fewer than `k` others are ahead of it.

The ranking is `insertionSort` by the score, which is stable. Its head is the
maximum (`head?_ranked`), so code that sorts and takes the first is about
`argmax`. For the first `k`, membership is a count (`mem_take_ranked`), and
`best_take_ranked_iff` says when ranking a part of the elements gives a best
list of all: exactly when nothing outside exceeds what was taken. Stores that
scan a part of their rows before they rank are the instance.
-/

namespace Top

variable {α σ κ : Type*} [LinearOrder σ] [LinearOrder κ] {score : α → σ} {key : α → κ}

/-- The list with the higher scores first, equal scores in their order. -/
def ranked (score : α → σ) (l : List α) : List α :=
  l.insertionSort fun a b => score b ≤ score a

/-- The first `k` of the elements, in some order of equal scores. -/
def Best (score : α → σ) (k : ℕ) (all r : List α) : Prop :=
  ∃ l : List α, l.Perm all ∧ l.Pairwise (fun a b => score b ≤ score a) ∧ r = l.take k

/-! ## Ranking -/

theorem ranked_perm (l : List α) : (ranked score l).Perm l :=
  List.perm_insertionSort _ l

@[simp] theorem mem_ranked {l : List α} {x : α} : x ∈ ranked score l ↔ x ∈ l :=
  (ranked_perm l).mem_iff

theorem ranked_pairwise (l : List α) :
    (ranked score l).Pairwise fun a b => score b ≤ score a := by
  have htotal : Std.Total fun a b => score b ≤ score a := ⟨fun a b => le_total (score b) (score a)⟩
  have htrans : IsTrans α fun a b => score b ≤ score a := ⟨fun _ _ _ hab hbc => hbc.trans hab⟩
  exact List.pairwise_insertionSort _ l

theorem best_ranked (k : ℕ) (l : List α) : Best score k l ((ranked score l).take k) :=
  ⟨ranked score l, ranked_perm l, ranked_pairwise l, rfl⟩

theorem mem_of_best {k : ℕ} {all r : List α} (h : Best score k all r) {x : α} (hx : x ∈ r) : x ∈ all := by
  obtain ⟨l, hperm, -, rfl⟩ := h
  exact hperm.mem_iff.mp (List.mem_of_mem_take hx)

theorem orderedInsert_congr {r r' : α → α → Prop} [DecidableRel r] [DecidableRel r'] {a : α} {l : List α}
    (h : ∀ b ∈ l, r a b ↔ r' a b) : l.orderedInsert r a = l.orderedInsert r' a := by
  induction l with
  | nil => rfl
  | cons b l ih =>
      have hb := h b List.mem_cons_self
      by_cases hr : r a b
      · rw [List.orderedInsert_cons_of_le r l hr, List.orderedInsert_cons_of_le r' l (hb.mp hr)]
      · rw [List.orderedInsert_of_not_le r l hr, List.orderedInsert_of_not_le r' l (mt hb.mpr hr),
          ih fun c hc => h c (List.mem_cons_of_mem _ hc)]

/-- Of a list with the higher keys first, the higher key comes first among equal scores. -/
theorem ranked_of_keyed {l : List α} (h : l.Pairwise fun a b => key b < key a) :
    ranked score l = ranked (fun a => toLex (score a, key a)) l := by
  induction l with
  | nil => rfl
  | cons a l ih =>
      obtain ⟨ha, hl⟩ := List.pairwise_cons.mp h
      have htail := ih hl
      unfold ranked at htail ⊢
      rw [List.insertionSort_cons, List.insertionSort_cons, ← htail]
      refine orderedInsert_congr fun b hb => ?_
      have hkey := ha b ((List.mem_insertionSort _).mp hb)
      rw [Prod.Lex.toLex_le_toLex]
      constructor
      · intro hle
        exact hle.lt_or_eq.imp_right fun heq => ⟨heq, hkey.le⟩
      · rintro (hlt | ⟨heq, -⟩)
        · exact hlt.le
        · exact heq.le

/-- Relations that agree sort alike. -/
theorem insertionSort_congr {r r' : α → α → Prop} [DecidableRel r] [DecidableRel r'] (h : ∀ a b, r a b ↔ r' a b)
    (l : List α) : l.insertionSort r = l.insertionSort r' := by
  induction l with
  | nil => rfl
  | cons a l ih =>
      rw [List.insertionSort_cons, List.insertionSort_cons, ih]
      exact orderedInsert_congr fun b _ => h a b

/-- The first of a ranking is the first element of the highest score. -/
theorem head?_ranked (l : List α) : (ranked score l).head? = l.argmax score := by
  induction l with
  | nil => rfl
  | cons a l ih =>
      rw [List.argmax_cons, ← ih]
      unfold ranked
      rw [List.insertionSort_cons]
      cases l.insertionSort fun a b => score b ≤ score a with
      | nil => rfl
      | cons b rest =>
          by_cases hle : score b ≤ score a
          · rw [List.orderedInsert_cons_of_le (fun a b => score b ≤ score a) rest hle]
            exact (if_neg hle.not_gt).symm
          · rw [List.orderedInsert_of_not_le (fun a b => score b ≤ score a) rest hle]
            exact (if_pos (not_le.mp hle)).symm

/-- An element of the highest score that passes a test is the best of those that pass. -/
theorem argmax_filter {p : α → Bool} {l : List α} {m : α} (h : l.argmax score = some m) (hp : p m = true) :
    (l.filter p).argmax score = some m := by
  induction l generalizing m with
  | nil => cases h
  | cons a l ih =>
      rw [List.argmax_cons] at h
      cases hbest : l.argmax score with
      | none =>
          rw [hbest] at h
          obtain rfl := Option.some.inj h
          rw [List.argmax_eq_none.mp hbest, List.filter_cons_of_pos hp]
          rfl
      | some c =>
          rw [hbest] at h
          dsimp only at h
          split at h
          · rename_i hlt
            obtain rfl := Option.some.inj h
            have htail := ih hbest hp
            by_cases ha : p a = true
            · rw [List.filter_cons_of_pos ha, List.argmax_cons, htail]
              exact if_pos hlt
            · rw [List.filter_cons_of_neg ha]
              exact htail
          · rename_i hle
            obtain rfl := Option.some.inj h
            rw [List.filter_cons_of_pos hp, List.argmax_cons]
            cases hfiltered : (l.filter p).argmax score with
            | none => rfl
            | some d =>
                have hd := List.le_of_mem_argmax (List.mem_of_mem_filter (List.argmax_mem hfiltered)) hbest
                exact if_neg (hd.trans (not_lt.mp hle)).not_gt

/-! ## Who is among the first -/

theorem mem_take_of_pairwise {l : List α} (h : l.Pairwise fun a b => score b < score a) {x : α} (hx : x ∈ l)
    {k : ℕ} : x ∈ l.take k ↔ l.countP (fun y => decide (score x < score y)) < k := by
  induction l generalizing k with
  | nil => cases hx
  | cons a l ih =>
      obtain ⟨ha, hl⟩ := List.pairwise_cons.mp h
      cases k with
      | zero => simp
      | succ k =>
          rw [List.take_succ_cons, List.mem_cons]
          rcases List.mem_cons.mp hx with rfl | hx
          · have hnone : (x :: l).countP (fun y => decide (score x < score y)) = 0 := by
              rw [List.countP_eq_zero]
              intro y hy
              rcases List.mem_cons.mp hy with rfl | hy
              · simp
              · simpa using (ha y hy).le
            rw [hnone]
            exact iff_of_true (.inl rfl) (Nat.succ_pos k)
          · have hlt := ha x hx
            have hne : x ≠ a := fun heq => lt_irrefl _ (heq ▸ hlt)
            rw [or_iff_right hne, ih hl hx, List.countP_cons_of_pos (by simpa using hlt)]
            omega

/-- Where no two elements share a score, those come first that fewer than `k` exceed. -/
theorem mem_take_ranked {l : List α} (hl : l.Nodup)
    (hscore : ∀ a ∈ l, ∀ b ∈ l, score a = score b → a = b) {x : α} {k : ℕ} :
    x ∈ (ranked score l).take k ↔ x ∈ l ∧ l.countP (fun y => decide (score x < score y)) < k := by
  have hstrict : (ranked score l).Pairwise fun a b => score b < score a := by
    refine ((ranked_pairwise l).and ((ranked_perm l).symm.nodup hl)).imp_of_mem ?_
    rintro a b ha hb ⟨hle, hne⟩
    exact hle.lt_of_ne fun heq => hne (hscore a (mem_ranked.mp ha) b (mem_ranked.mp hb) heq.symm)
  have hperm : (ranked score l).Perm l := ranked_perm l
  rw [← hperm.countP_eq]
  constructor
  · intro hx
    have hmem := List.mem_of_mem_take hx
    exact ⟨mem_ranked.mp hmem, (mem_take_of_pairwise hstrict hmem).mp hx⟩
  · rintro ⟨hx, hcount⟩
    exact (mem_take_of_pairwise hstrict (mem_ranked.mpr hx)).mpr hcount

/-- Where `k` elements reach a score, the first `k` do. -/
theorem le_of_mem_take {l : List α} (h : l.Pairwise fun a b => score b ≤ score a) {k : ℕ} {x : σ}
    (hcount : k ≤ l.countP fun y => decide (x ≤ score y)) {y : α} (hy : y ∈ l.take k) : x ≤ score y := by
  induction l generalizing k with
  | nil => simp at hy
  | cons a l ih =>
      obtain ⟨ha, hl⟩ := List.pairwise_cons.mp h
      cases k with
      | zero => simp at hy
      | succ k =>
          by_cases hle : x ≤ score a
          · rw [List.countP_cons_of_pos (by simpa using hle)] at hcount
            rcases List.mem_cons.mp hy with rfl | hy
            · exact hle
            · exact ih hl (by omega) hy
          · have hnone : (a :: l).countP (fun y => decide (x ≤ score y)) = 0 := by
              rw [List.countP_eq_zero]
              intro b hb
              rcases List.mem_cons.mp hb with rfl | hb
              · simpa using hle
              · simpa using (ha b hb).trans_lt (not_le.mp hle)
            omega

/-- The first `k` of some elements are the best of all exactly if they are among all, and whatever is not among
those elements is reached by `k` of them. -/
theorem best_take_ranked_iff {k : ℕ} {all seen : List α} (hall : all.Nodup) (hseen : seen.Nodup) :
    Best score k all ((ranked score seen).take k) ↔
      (∀ x ∈ (ranked score seen).take k, x ∈ all) ∧
        ∀ x ∈ all, x ∉ seen → k ≤ seen.countP fun y => decide (score x ≤ score y) := by
  have hperm : (ranked score seen).Perm seen := ranked_perm seen
  have hsorted : (ranked score seen).Pairwise fun a b => score b ≤ score a := ranked_pairwise seen
  constructor
  · intro hbest
    refine ⟨fun x hx => mem_of_best hbest hx, fun x hx hunseen => ?_⟩
    obtain ⟨l, hl, hpairwise, hr⟩ := hbest
    have hmem := hl.mem_iff.mpr hx
    have hnot : x ∉ l.take k := by
      rw [← hr]
      exact fun htaken => hunseen (hperm.mem_iff.mp (List.mem_of_mem_take htaken))
    have hdropped : x ∈ l.drop k := by
      rw [← List.take_append_drop k l] at hmem
      exact (List.mem_append.mp hmem).resolve_left hnot
    have hlength : (l.take k).length = k := by
      rw [List.length_take]
      have hpos := List.length_pos_of_mem hdropped
      rw [List.length_drop] at hpos
      omega
    have hreached : (l.take k).countP (fun y => decide (score x ≤ score y)) = k := by
      rw [List.countP_eq_length.mpr, hlength]
      intro y hy
      rw [← List.take_append_drop k l, List.pairwise_append] at hpairwise
      simpa using hpairwise.2.2 y hy x hdropped
    rw [← hr] at hreached
    rw [← hperm.countP_eq, ← hreached]
    exact (List.take_sublist k _).countP_le
  · rintro ⟨hamong, hrest⟩
    have htaken := (hperm.symm.nodup hseen).sublist (List.take_sublist k _)
    obtain ⟨first, hfirst, hsublist⟩ := List.subperm_of_subset htaken hamong
    obtain ⟨rest, hsplit⟩ := hsublist.exists_perm_append
    have hrest' := (hsplit.trans (hfirst.append_right rest)).symm
    have hdisjoint := List.nodup_append.mp (hrest'.symm.nodup hall)
    have hlater : ∀ b ∈ rest, b ∉ (ranked score seen).take k := fun b hb htaken =>
      hdisjoint.2.2 b htaken b hb rfl
    have hbelow : ∀ a ∈ (ranked score seen).take k, ∀ b ∈ rest, score b ≤ score a := by
      intro a ha b hb
      have hmem : b ∈ all := hrest'.mem_iff.mp (List.mem_append_right _ hb)
      by_cases hb' : b ∈ seen
      · have hranked : b ∈ ranked score seen := hperm.mem_iff.mpr hb'
        rw [← List.take_append_drop k (ranked score seen)] at hranked hsorted
        have hdropped := (List.mem_append.mp hranked).resolve_left (hlater b hb)
        exact (List.pairwise_append.mp hsorted).2.2 a ha b hdropped
      · refine le_of_mem_take hsorted ?_ ha
        rw [hperm.countP_eq]
        exact hrest b hmem hb'
    refine ⟨(ranked score seen).take k ++ ranked score rest, ?_, ?_, ?_⟩
    · exact ((ranked_perm rest).append_left _).trans hrest'
    · refine List.pairwise_append.mpr ⟨hsorted.sublist (List.take_sublist k _), ranked_pairwise rest, ?_⟩
      exact fun a ha b hb => hbelow a ha b (mem_ranked.mp hb)
    · rcases Nat.lt_or_ge (ranked score seen).length k with hshort | hlong
      · -- all that was seen comes first, so nothing is left
        have hempty : rest = [] := by
          rw [List.eq_nil_iff_forall_not_mem]
          intro b hb
          have hunseen : b ∉ seen := by
            intro hb'
            refine hlater b hb ?_
            rw [List.take_of_length_le hshort.le]
            exact hperm.mem_iff.mpr hb'
          have hcount := hrest b (hrest'.mem_iff.mp (List.mem_append_right _ hb)) hunseen
          have hle := seen.countP_le_length (p := fun y => decide (score b ≤ score y))
          rw [← hperm.length_eq] at hle
          omega
        subst hempty
        rw [show ranked score ([] : List α) = [] from rfl, List.append_nil, List.take_take, Nat.min_self]
      · rw [List.take_append_of_le_length, List.take_take, Nat.min_self]
        rw [List.length_take]
        omega

end Top
