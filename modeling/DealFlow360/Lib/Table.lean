import Mathlib.Algebra.BigOperators.Group.List.Basic
import Mathlib.Data.List.Nodup
import Mathlib.Tactic.Abel

/-!
# Keyed tables as lists

A table is a list of rows with a key. `lookup` reads the first row of a key,
`upsert` replaces it or appends a new row, `modifyFirst` mutates the first row
a test accepts, and `erase` drops every row of a key. With pairwise distinct
keys a table is a finite map: membership is `lookup`, and every operation
changes the one row it names.

Reading after writing is given by simp lemmas, one for each pair of operations;
counts and sums over the rows change by the rows an operation names
(`countP_upsert`, `sum_upsert`, `sum_erase`). `modifyFirst` is the update by a
test rather than by a key; it agrees with `upsert` where the test names a key.
Everything is over any type of rows and any key with decidable equality.
-/

namespace Table

variable {α κ β : Type*} [DecidableEq κ] {key : α → κ}

/-- The first row with key `k`. -/
def lookup (key : α → κ) (k : κ) (l : List α) : Option α :=
  l.find? fun x => decide (key x = k)

/-- Replace the first row accepted by `p` with `x`, or append `x`. -/
def upsertBy (p : α → Bool) (x : α) : List α → List α
  | [] => [x]
  | y :: ys => if p y then x :: ys else y :: upsertBy p x ys

/-- Replace the first row with the key of `x`, or append `x`. -/
def upsert (key : α → κ) (x : α) (l : List α) : List α :=
  upsertBy (fun y => decide (key y = key x)) x l

/-- Mutate the first row accepted by `p`. -/
def modifyFirst (p : α → Bool) (f : α → α) : List α → List α
  | [] => []
  | y :: ys => if p y then f y :: ys else y :: modifyFirst p f ys

/-- Drop every row with key `k`. -/
def erase (key : α → κ) (k : κ) (l : List α) : List α :=
  l.filter fun x => decide (key x ≠ k)

/-- No two rows share a key. -/
def Distinct (key : α → κ) (l : List α) : Prop :=
  (l.map key).Nodup

/-! ## Reading -/

@[simp] theorem lookup_nil (k : κ) : lookup key k [] = none := rfl

theorem lookup_cons (k : κ) (x : α) (l : List α) :
    lookup key k (x :: l) = if key x = k then some x else lookup key k l := by
  by_cases h : key x = k <;> simp [lookup, h]

theorem mem_of_lookup {k : κ} {l : List α} {x : α} (h : lookup key k l = some x) : x ∈ l :=
  List.mem_of_find?_eq_some h

theorem key_of_lookup {k : κ} {l : List α} {x : α} (h : lookup key k l = some x) : key x = k := by
  simpa using List.find?_some h

theorem lookup_eq_none {k : κ} {l : List α} : lookup key k l = none ↔ ∀ x ∈ l, key x ≠ k := by
  simp [lookup]

theorem exists_lookup_of_mem {l : List α} {x : α} (h : x ∈ l) :
    ∃ y, lookup key (key x) l = some y := by
  cases hl : lookup key (key x) l with
  | none => exact absurd rfl (lookup_eq_none.mp hl x h)
  | some y => exact ⟨y, rfl⟩

/-- In a table with distinct keys, a member is what its key looks up. -/
theorem lookup_of_mem {l : List α} (hd : Distinct key l) {x : α} (h : x ∈ l) :
    lookup key (key x) l = some x := by
  induction l with
  | nil => cases h
  | cons y ys ih =>
      rw [Distinct, List.map_cons, List.nodup_cons] at hd
      rw [lookup_cons]
      rcases List.mem_cons.mp h with rfl | hx
      · rw [if_pos rfl]
      · have hne : key y ≠ key x := fun he => hd.1 (he ▸ List.mem_map_of_mem hx)
        rw [if_neg hne, ih hd.2 hx]

theorem mem_iff_lookup {l : List α} (hd : Distinct key l) {x : α} :
    x ∈ l ↔ lookup key (key x) l = some x :=
  ⟨lookup_of_mem hd, mem_of_lookup⟩

/-! ## Writing one row -/

@[simp] theorem upsert_nil (x : α) : upsert key x [] = [x] := rfl

theorem upsert_cons (x y : α) (ys : List α) :
    upsert key x (y :: ys) = if key y = key x then x :: ys else y :: upsert key x ys := by
  unfold upsert
  rw [upsertBy]
  simp only [decide_eq_true_eq]

theorem lookup_upsert (x : α) (l : List α) (k : κ) :
    lookup key k (upsert key x l) = if key x = k then some x else lookup key k l := by
  induction l with
  | nil => rw [upsert_nil, lookup_cons]
  | cons y ys ih =>
      rw [upsert_cons]
      by_cases hy : key y = key x
      · rw [if_pos hy, lookup_cons, lookup_cons, hy]
        by_cases hk : key x = k <;> simp [hk]
      · rw [if_neg hy, lookup_cons, ih, lookup_cons]
        by_cases hk : key x = k
        · subst hk
          simp [hy]
        · simp [hk]

@[simp] theorem lookup_upsert_self (x : α) (l : List α) :
    lookup key (key x) (upsert key x l) = some x := by
  rw [lookup_upsert, if_pos rfl]

/-- Storing what is looked up already changes nothing. -/
theorem upsert_eq_self_iff {x : α} {l : List α} :
    upsert key x l = l ↔ lookup key (key x) l = some x := by
  constructor
  · intro h
    rw [← h]
    exact lookup_upsert_self x l
  · intro h
    induction l with
    | nil => cases h
    | cons y ys ih =>
        rw [lookup_cons] at h
        rw [upsert_cons]
        by_cases hy : key y = key x
        · rw [if_pos hy] at h ⊢
          rw [Option.some.inj h]
        · rw [if_neg hy] at h ⊢
          rw [ih h]

theorem lookup_upsert_of_ne {x : α} {k : κ} (h : key x ≠ k) (l : List α) :
    lookup key k (upsert key x l) = lookup key k l := by
  rw [lookup_upsert, if_neg h]

theorem mem_upsert {x z : α} {l : List α} (h : z ∈ upsert key x l) : z = x ∨ z ∈ l := by
  induction l with
  | nil => exact .inl (List.mem_singleton.mp h)
  | cons y ys ih =>
      rw [upsert_cons] at h
      split at h
      · rcases List.mem_cons.mp h with rfl | h
        · exact .inl rfl
        · exact .inr (List.mem_cons_of_mem _ h)
      · rcases List.mem_cons.mp h with rfl | h
        · exact .inr (List.mem_cons_self ..)
        · exact (ih h).imp_right (List.mem_cons_of_mem _)

theorem mem_upsert_of_ne {x z : α} {l : List α} (hz : z ∈ l) (hne : key z ≠ key x) :
    z ∈ upsert key x l := by
  induction l with
  | nil => cases hz
  | cons y ys ih =>
      rw [upsert_cons]
      rcases List.mem_cons.mp hz with rfl | hz
      · rw [if_neg hne]
        exact List.mem_cons_self ..
      · split
        · exact List.mem_cons_of_mem _ hz
        · exact List.mem_cons_of_mem _ (ih hz)

theorem mem_upsert_self (x : α) (l : List α) : x ∈ upsert key x l :=
  mem_of_lookup (lookup_upsert_self x l)

theorem distinct_upsert {l : List α} (hd : Distinct key l) (x : α) :
    Distinct key (upsert key x l) := by
  induction l with
  | nil => exact List.nodup_singleton _
  | cons y ys ih =>
      rw [Distinct, List.map_cons, List.nodup_cons] at hd
      rw [upsert_cons]
      split
      · rename_i hy
        rw [Distinct, List.map_cons, List.nodup_cons, ← hy]
        exact hd
      · rename_i hy
        rw [Distinct, List.map_cons, List.nodup_cons]
        refine ⟨fun hmem => ?_, ih hd.2⟩
        obtain ⟨z, hz, hk⟩ := List.mem_map.mp hmem
        rcases mem_upsert (show z ∈ upsert key x ys from hz) with rfl | hz
        · exact hy hk.symm
        · exact hd.1 (hk ▸ List.mem_map_of_mem hz)

/-- A row found by a test is found there after it is replaced by another that passes the test. -/
theorem find?_upsert {p : α → Bool} {x y : α} {l : List α} (hd : Distinct key l) (hfind : l.find? p = some y)
    (hkey : key x = key y) (hp : p x = true) : (upsert key x l).find? p = some x := by
  induction l with
  | nil => cases hfind
  | cons z zs ih =>
      obtain ⟨hz, hzs⟩ := List.nodup_cons.mp hd
      rw [upsert_cons]
      by_cases hsame : key z = key x
      · rw [if_pos hsame, List.find?_cons_of_pos hp]
      · rw [if_neg hsame]
        by_cases hpz : p z = true
        · rw [List.find?_cons_of_pos hpz] at hfind
          obtain rfl := Option.some.inj hfind
          exact absurd hkey.symm hsame
        · rw [List.find?_cons_of_neg hpz] at hfind ⊢
          exact ih hzs hfind

/-- With distinct keys, the rows after an upsert are the new row and the rows of other keys. -/
theorem mem_upsert_iff {l : List α} (hd : Distinct key l) {x z : α} :
    z ∈ upsert key x l ↔ z = x ∨ (z ∈ l ∧ key z ≠ key x) := by
  rw [mem_iff_lookup (distinct_upsert hd x), lookup_upsert]
  by_cases h : key x = key z
  · simp only [h, if_pos, Option.some.injEq, ne_eq, not_true_eq_false, and_false, or_false]
    exact eq_comm
  · rw [if_neg h, ← mem_iff_lookup hd]
    refine ⟨fun hz => .inr ⟨hz, fun he => h he.symm⟩, ?_⟩
    rintro (rfl | ⟨hz, -⟩)
    · exact absurd rfl h
    · exact hz

/-- An upsert changes a sum over the rows by the new row less the row it replaces. -/
theorem sum_upsert [AddCommGroup β] (f : α → β) (x : α) (l : List α) :
    ((upsert key x l).map f).sum
      = (l.map f).sum + f x - ((lookup key (key x) l).map f).getD 0 := by
  induction l with
  | nil => simp
  | cons y ys ih =>
      rw [upsert_cons]
      rw [lookup_cons]
      split
      · simp only [List.map_cons, List.sum_cons, Option.map_some, Option.getD_some]
        abel
      · simp only [List.map_cons, List.sum_cons, ih]
        abel

/-- An upsert that replaces a row changes how many rows pass a test by the two rows. -/
theorem countP_upsert (p : α → Bool) {x y : α} {l : List α} (h : lookup key (key x) l = some y) :
    (upsert key x l).countP p + (if p y then 1 else 0) = l.countP p + if p x then 1 else 0 := by
  induction l with
  | nil => cases h
  | cons z zs ih =>
      rw [lookup_cons] at h
      rw [upsert_cons]
      by_cases hz : key z = key x
      · rw [if_pos hz] at h ⊢
        cases h
        rw [List.countP_cons, List.countP_cons]
        omega
      · rw [if_neg hz] at h ⊢
        rw [List.countP_cons, List.countP_cons]
        have hrest := ih h
        omega

theorem countP_upsert_of_none (p : α → Bool) {x : α} {l : List α} (h : lookup key (key x) l = none) :
    (upsert key x l).countP p = l.countP p + if p x then 1 else 0 := by
  induction l with
  | nil =>
      show [x].countP p = _
      rw [List.countP_singleton, List.countP_nil, Nat.zero_add]
  | cons z zs ih =>
      rw [lookup_cons] at h
      rw [upsert_cons]
      by_cases hz : key z = key x
      · rw [if_pos hz] at h
        cases h
      · rw [if_neg hz] at h ⊢
        rw [List.countP_cons, List.countP_cons, ih h]
        omega

theorem countP_upsert_le (p : α → Bool) (x : α) (l : List α) :
    (upsert key x l).countP p ≤ l.countP p + if p x then 1 else 0 := by
  induction l with
  | nil =>
      show [x].countP p ≤ _
      rw [List.countP_singleton, List.countP_nil, Nat.zero_add]
  | cons y l ih =>
      rw [upsert_cons, List.countP_cons]
      split
      · rw [List.countP_cons]
        omega
      · rw [List.countP_cons]
        omega

/-! ## Dropping rows -/

theorem mem_erase {k : κ} {l : List α} {x : α} : x ∈ erase key k l ↔ x ∈ l ∧ key x ≠ k := by
  simp [erase]

theorem lookup_erase (k k' : κ) (l : List α) :
    lookup key k' (erase key k l) = if k = k' then none else lookup key k' l := by
  induction l with
  | nil => simp [erase]
  | cons y ys ih =>
      by_cases hy : key y = k
      · have h : erase key k (y :: ys) = erase key k ys := by simp [erase, hy]
        rw [h, ih, lookup_cons, hy]
        by_cases hk : k = k' <;> simp [hk]
      · have h : erase key k (y :: ys) = y :: erase key k ys := by simp [erase, hy]
        rw [h, lookup_cons, ih, lookup_cons]
        by_cases hk : k = k'
        · subst hk
          simp [hy]
        · simp [hk]

/-- Dropping the first row of one key is not seen at the others. -/
theorem lookup_eraseP {k k' : κ} (h : k ≠ k') (l : List α) :
    lookup key k' (l.eraseP fun x => decide (key x = k)) = lookup key k' l := by
  induction l with
  | nil => rfl
  | cons y ys ih =>
      rw [List.eraseP_cons, lookup_cons]
      by_cases hy : key y = k
      · rw [decide_eq_true hy, cond_true, if_neg (hy ▸ h)]
      · rw [decide_eq_false hy, cond_false, lookup_cons, ih]

omit [DecidableEq κ] in
theorem distinct_filter {l : List α} (hd : Distinct key l) (p : α → Bool) :
    Distinct key (l.filter p) :=
  (List.filter_sublist.map key).nodup hd

theorem distinct_erase {l : List α} (hd : Distinct key l) (k : κ) : Distinct key (erase key k l) :=
  distinct_filter hd _

/-! ## Filtered tables -/

theorem filter_upsert_of_pos {p : α → Bool} {x : α} {l : List α} (hx : p x = true)
    (hold : ∀ y ∈ lookup key (key x) l, p y = true) :
    (upsert key x l).filter p = upsert key x (l.filter p) := by
  induction l with
  | nil => exact List.filter_cons_of_pos hx
  | cons y ys ih =>
      rw [upsert_cons]
      rw [lookup_cons] at hold
      by_cases hkey : key y = key x
      · rw [if_pos hkey] at hold
        rw [if_pos hkey, List.filter_cons_of_pos hx, List.filter_cons_of_pos (hold y rfl), upsert_cons,
          if_pos hkey]
      · rw [if_neg hkey] at hold
        rw [if_neg hkey]
        by_cases hy : p y = true
        · rw [List.filter_cons_of_pos hy, List.filter_cons_of_pos hy, ih hold, upsert_cons,
            if_neg hkey]
        · rw [List.filter_cons_of_neg hy, List.filter_cons_of_neg hy, ih hold]

theorem filter_upsert_of_neg {p : α → Bool} {x : α} {l : List α} (hd : Distinct key l) (hx : p x = false) :
    (upsert key x l).filter p = erase key (key x) (l.filter p) := by
  have hx' : ¬ p x = true := by rw [hx]; exact Bool.false_ne_true
  induction l with
  | nil => exact List.filter_cons_of_neg hx'
  | cons y ys ih =>
      rw [Distinct, List.map_cons, List.nodup_cons] at hd
      have htail := ih hd.2
      unfold erase at htail ⊢
      rw [upsert_cons]
      by_cases hkey : key y = key x
      · have hothers : ∀ z ∈ ys.filter p, decide (key z ≠ key x) = true := by
          intro z hz
          refine decide_eq_true fun heq => hd.1 ?_
          rw [hkey, ← heq]
          exact List.mem_map_of_mem (List.mem_filter.mp hz).1
        rw [if_pos hkey, List.filter_cons_of_neg hx']
        by_cases hy : p y = true
        · rw [List.filter_cons_of_pos hy, List.filter_cons_of_neg (by simpa using hkey),
            List.filter_eq_self.mpr hothers]
        · rw [List.filter_cons_of_neg hy, List.filter_eq_self.mpr hothers]
      · rw [if_neg hkey]
        by_cases hy : p y = true
        · rw [List.filter_cons_of_pos hy, List.filter_cons_of_pos hy, List.filter_cons_of_pos (by simpa using hkey),
            htail]
        · rw [List.filter_cons_of_neg hy, List.filter_cons_of_neg hy, htail]

theorem filter_erase (p : α → Bool) (k : κ) (l : List α) :
    (erase key k l).filter p = erase key k (l.filter p) := by
  unfold erase
  rw [List.filter_filter, List.filter_filter]
  simp only [Bool.and_comm]

theorem lookup_filter {p : α → Bool} {k : κ} {l : List α} (hd : Distinct key l)
    (hold : ∀ y ∈ lookup key k l, p y = true) :
    lookup key k (l.filter p) = lookup key k l := by
  cases hlookup : lookup key k l with
  | none =>
      rw [lookup_eq_none] at hlookup ⊢
      exact fun x hx => hlookup x (List.mem_filter.mp hx).1
  | some y =>
      have hmem := List.mem_filter.mpr ⟨mem_of_lookup hlookup, hold y hlookup⟩
      rw [← key_of_lookup hlookup]
      exact lookup_of_mem (distinct_filter hd p) hmem

theorem erase_eq_self {k : κ} {l : List α} (h : ∀ x ∈ l, key x ≠ k) : erase key k l = l :=
  List.filter_eq_self.mpr fun x hx => decide_eq_true (h x hx)

/-! ## Tables that read alike -/

/-- Tables of one order of distinct keys that read alike are alike. -/
theorem eq_of_lookup {l l' : List α} (hkeys : l'.map key = l.map key) (hd : Distinct key l)
    (h : ∀ k, lookup key k l' = lookup key k l) : l' = l := by
  induction l generalizing l' with
  | nil => exact List.map_eq_nil_iff.mp hkeys
  | cons x l ih =>
      obtain ⟨x', l', rfl, hx, hl⟩ := List.map_eq_cons_iff.mp hkeys
      obtain ⟨hnew, hrest⟩ := List.nodup_cons.mp hd
      have hfirst := h (key x)
      rw [lookup_cons, lookup_cons, if_pos hx, if_pos rfl] at hfirst
      obtain rfl := Option.some.inj hfirst
      congr 1
      refine ih hl hrest fun k => ?_
      by_cases hk : key x' = k
      · have hnone : ∀ {m : List α}, m.map key = l.map key → lookup key k m = none := by
          intro m hm
          rw [lookup_eq_none, ← hk]
          intro y hy hkey
          refine hnew ?_
          rw [← hm, ← hkey]
          exact List.mem_map_of_mem hy
        rw [hnone hl, hnone rfl]
      · have hlater := h k
        rwa [lookup_cons, lookup_cons, if_neg hk, if_neg hk] at hlater

/-- With distinct keys, the rows of a key are the one that is looked up. -/
theorem sum_of_key [AddCommMonoid β] (f : α → β) (k : κ) {l : List α} (hd : Distinct key l) :
    ((l.filter fun x => key x = k).map f).sum = ((lookup key k l).map f).getD 0 := by
  induction l with
  | nil => rfl
  | cons x l ih =>
      obtain ⟨hx, hl⟩ := List.nodup_cons.mp hd
      rw [lookup_cons]
      by_cases hk : key x = k
      · have hrest : (l.filter fun y => key y = k) = [] := by
          rw [List.filter_eq_nil_iff]
          intro y hy hyk
          refine hx ?_
          rw [hk, ← of_decide_eq_true hyk]
          exact List.mem_map_of_mem hy
        rw [if_pos hk, List.filter_cons, if_pos (decide_eq_true hk), hrest]
        simp
      · rw [if_neg hk, List.filter_cons, if_neg (by simpa using hk)]
        exact ih hl

/-- With distinct keys, erasing a key takes its row out of a sum. -/
theorem sum_erase [AddCommGroup β] (f : α → β) (k : κ) {l : List α} (hd : Distinct key l) :
    ((erase key k l).map f).sum = (l.map f).sum - ((lookup key k l).map f).getD 0 := by
  induction l with
  | nil => simp [erase]
  | cons y ys ih =>
      rw [Distinct, List.map_cons, List.nodup_cons] at hd
      rw [lookup_cons]
      by_cases hy : key y = k
      · have herase : erase key k (y :: ys) = ys := by
          have hrest : ∀ x ∈ ys, key x ≠ k := fun x hx he =>
            hd.1 (hy.trans he.symm ▸ List.mem_map_of_mem hx)
          simpa [erase, hy] using hrest
        rw [herase, if_pos hy, List.map_cons, List.sum_cons, Option.map_some, Option.getD_some]
        abel
      · have herase : erase key k (y :: ys) = y :: erase key k ys := by simp [erase, hy]
        rw [herase, if_neg hy, List.map_cons, List.sum_cons, List.map_cons, List.sum_cons, ih hd.2]
        abel

/-! ## Mutating one row in place -/

@[simp] theorem modifyFirst_nil (p : α → Bool) (f : α → α) : modifyFirst p f [] = [] := rfl

theorem modifyFirst_cons (p : α → Bool) (f : α → α) (y : α) (ys : List α) :
    modifyFirst p f (y :: ys) = if p y then f y :: ys else y :: modifyFirst p f ys := rfl

theorem mem_modifyFirst {p : α → Bool} {f : α → α} {z : α} {l : List α}
    (h : z ∈ modifyFirst p f l) : z ∈ l ∨ ∃ x ∈ l, p x = true ∧ z = f x := by
  induction l with
  | nil => cases h
  | cons y ys ih =>
      rw [modifyFirst_cons] at h
      split at h
      · rename_i hy
        rcases List.mem_cons.mp h with rfl | h
        · exact .inr ⟨y, List.mem_cons_self .., hy, rfl⟩
        · exact .inl (List.mem_cons_of_mem _ h)
      · rcases List.mem_cons.mp h with rfl | h
        · exact .inl (List.mem_cons_self ..)
        · rcases ih h with h | ⟨x, hx, hp, rfl⟩
          · exact .inl (List.mem_cons_of_mem _ h)
          · exact .inr ⟨x, List.mem_cons_of_mem _ hx, hp, rfl⟩

/-- A mutation that keeps a view of the rows it may change keeps the list of views. -/
theorem map_modifyFirst_of {p : α → Bool} {f : α → α} {g : α → β}
    (hg : ∀ x, p x = true → g (f x) = g x) (l : List α) :
    (modifyFirst p f l).map g = l.map g := by
  induction l with
  | nil => rfl
  | cons y ys ih =>
      rw [modifyFirst_cons]
      split
      · rename_i hy
        rw [List.map_cons, List.map_cons, hg y hy]
      · rw [List.map_cons, List.map_cons, ih]

theorem map_modifyFirst {p : α → Bool} {f : α → α} {g : α → β} (hg : ∀ x, g (f x) = g x)
    (l : List α) : (modifyFirst p f l).map g = l.map g :=
  map_modifyFirst_of (fun x _ => hg x) l

/-- Two mutations that agree on the first row agree. -/
theorem modifyFirst_congr {p : α → Bool} {f g : α → α} {l : List α}
    (h : ∀ x, l.find? p = some x → f x = g x) : modifyFirst p f l = modifyFirst p g l := by
  induction l with
  | nil => rfl
  | cons y ys ih =>
      rw [modifyFirst_cons, modifyFirst_cons]
      split
      · rename_i hy
        rw [h y (by simp [hy])]
      · rename_i hy
        rw [ih fun x hx => h x (by simpa [hy] using hx)]

/-- A mutation whose first row is left as it is changes nothing. -/
theorem modifyFirst_eq_self {p : α → Bool} {f : α → α} {l : List α}
    (h : ∀ x, l.find? p = some x → f x = x) : modifyFirst p f l = l := by
  rw [modifyFirst_congr h]
  clear h
  induction l with
  | nil => rfl
  | cons y ys ih =>
      rw [modifyFirst_cons]
      split
      · rfl
      · rw [ih]

theorem lookup_modifyFirst {f : α → α} (hkey : ∀ x, key (f x) = key x) (k k' : κ) (l : List α) :
    lookup key k' (modifyFirst (fun x => decide (key x = k)) f l)
      = if k = k' then (lookup key k l).map f else lookup key k' l := by
  induction l with
  | nil => simp
  | cons y ys ih =>
      simp only [modifyFirst_cons, decide_eq_true_eq]
      by_cases hy : key y = k
      · rw [if_pos hy, lookup_cons, hkey, lookup_cons, if_pos hy, lookup_cons, hy]
        by_cases hk : k = k' <;> simp [hk]
      · rw [if_neg hy, lookup_cons, ih, lookup_cons, if_neg hy, lookup_cons]
        by_cases hk : k = k'
        · subst hk
          simp [hy]
        · simp [hk]

end Table
