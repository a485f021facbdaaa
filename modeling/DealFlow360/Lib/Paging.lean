import Mathlib.Algebra.Order.BigOperators.Group.List
import Mathlib.Algebra.Order.Group.Nat
import Mathlib.Data.List.Nodup
import Mathlib.Data.List.Sort

/-!
# Pages of a list

The pages of one list put together are the list. Where each page is cut from a
list of its own, and the lists only agree on the order of what a comparison
tells apart, the pages are a partition in every case exactly if no page ends
between two elements that compare equal.

A page is `drop` and `take`. For one list the pages are its parts, and
`pages_take_iff` says what is lost when a page shows fewer than its size. For a
list of its own for each page, only the order up to a comparison is known:
`OrderOf` bounds the places a row may have (`OrderOf.position`), and exactly
where rows that compare equal are on one page each row is on one page
(`pages_perm_iff`). The proof of the other direction exchanges two neighbours
that compare equal (`OrderOf.swap`).
-/

namespace Paging

variable {α : Type*}

/-- A page, the first one being page zero. -/
def page (size : ℕ) (l : List α) (j : ℕ) : List α := (l.drop (j * size)).take size

def pageCount (size total : ℕ) : ℕ := (total + size - 1) / size

/-- The pages of several lists, each page from its own, put together. -/
def pages (size : ℕ) (lists : ℕ → List α) (count : ℕ) : List α :=
  (List.range count).flatMap fun j => page size (lists j) j

theorem lt_pageCount {size total j : ℕ} (hsize : 0 < size) : j < pageCount size total ↔ j * size < total := by
  unfold pageCount
  rw [← Nat.succ_le_iff, Nat.le_div_iff_mul_le hsize, Nat.succ_mul]
  omega

/-! ## One list -/

theorem take_append_page (size j : ℕ) (l : List α) : l.take (j * size) ++ page size l j = l.take ((j + 1) * size) := by
  unfold page
  rw [Nat.succ_mul, List.take_add]

theorem pages_const (size : ℕ) (l : List α) (count : ℕ) : pages size (fun _ => l) count = l.take (count * size) := by
  induction count with
  | zero => rw [Nat.zero_mul]; rfl
  | succ count ih =>
      unfold pages at ih ⊢
      rw [List.range_succ, List.flatMap_append, ih, List.flatMap_singleton, take_append_page]

/-- All pages of a list are the list. -/
theorem pages_all {size : ℕ} (hsize : 0 < size) (l : List α) :
    pages size (fun _ => l) (pageCount size l.length) = l := by
  rw [pages_const]
  refine List.take_of_length_le (not_lt.mp fun hlt => ?_)
  exact lt_irrefl _ ((lt_pageCount hsize).mpr hlt)

theorem length_page (size j : ℕ) (l : List α) : (page size l j).length = min size (l.length - j * size) := by
  simp [page]

/-! ## Pages that show less than their size -/

theorem flatMap_take_eq_iff {ι : Type*} {f : ι → List α} {cap : ℕ} (is : List ι) :
    (is.flatMap fun i => (f i).take cap) = is.flatMap f ↔ ∀ i ∈ is, (f i).length ≤ cap := by
  induction is with
  | nil => simp
  | cons i is ih =>
      have hrest : (is.flatMap fun i => (f i).take cap).length ≤ (is.flatMap f).length := by
        simp only [List.length_flatMap, List.length_take]
        exact List.sum_le_sum fun i _ => min_le_right _ _
      rw [List.flatMap_cons, List.flatMap_cons, List.forall_mem_cons, ← ih]
      constructor
      · intro h
        have hlength := congrArg List.length h
        simp only [List.length_append, List.length_take] at hlength
        have hfirst : (f i).length ≤ cap := by omega
        rw [List.take_of_length_le hfirst] at h
        exact ⟨hfirst, List.append_cancel_left h⟩
      · rintro ⟨hfirst, h⟩
        rw [List.take_of_length_le hfirst, h]

/-- Pages that show at most so many elements hold them all exactly if no page has more. -/
theorem pages_take_iff {size cap : ℕ} (hsize : 0 < size) (l : List α) :
    ((List.range (pageCount size l.length)).flatMap fun j => (page size l j).take cap) = l ↔
      min size l.length ≤ cap := by
  have hall : (List.range (pageCount size l.length)).flatMap (page size l) = l := pages_all hsize l
  have hiff := @flatMap_take_eq_iff _ _ (page size l) cap (List.range (pageCount size l.length))
  rw [hall] at hiff
  rw [hiff]
  constructor
  · intro h
    rcases Nat.eq_zero_or_pos l.length with hzero | hpos
    · omega
    · have hfirst := h 0 (List.mem_range.mpr ((lt_pageCount hsize).mpr (by rwa [Nat.zero_mul])))
      rwa [length_page, Nat.zero_mul, Nat.sub_zero] at hfirst
  · intro h j _
    rw [length_page]
    omega

/-- The first page over and over is the list exactly if the list is one page. -/
theorem first_page_iff {size : ℕ} (hsize : 0 < size) {l : List α} (hl : l.Nodup) :
    ((List.range (pageCount size l.length)).flatMap fun _ => l.take size) = l ↔ l.length ≤ size := by
  constructor
  · intro h
    by_contra hlt
    obtain ⟨x, hx⟩ : ∃ x, x ∈ l.take size := List.exists_mem_of_length_pos (by rw [List.length_take]; omega)
    have hcount : 1 < pageCount size l.length := (lt_pageCount hsize).mpr (by omega)
    rw [← h, List.nodup_flatMap] at hl
    have hzero := List.pairwise_iff_getElem.mp hl.2 0 1 (by simp; omega) (by simpa using hcount) one_pos
    exact hzero hx hx
  · intro h
    rcases Nat.eq_zero_or_pos l.length with hzero | hpos
    · obtain rfl := List.length_eq_zero_iff.mp hzero
      simp
    · have hcount : pageCount size l.length = 1 := by
        have hone : 0 < pageCount size l.length := (lt_pageCount hsize).mpr (by omega)
        have htwo : ¬1 < pageCount size l.length := (lt_pageCount hsize).not.mpr (by omega)
        omega
      rw [hcount, List.take_of_length_le h]
      simp

/-! ## Where an element is -/

theorem mem_page {size j : ℕ} (hsize : 0 < size) {l : List α} {x : α} :
    x ∈ page size l j ↔ ∃ i, l[i]? = some x ∧ i / size = j := by
  unfold page
  rw [List.mem_iff_getElem?]
  constructor
  · rintro ⟨i, hi⟩
    rw [List.getElem?_take] at hi
    split at hi
    · rename_i hlt
      rw [List.getElem?_drop] at hi
      refine ⟨j * size + i, hi, ?_⟩
      rw [Nat.mul_comm, Nat.mul_add_div hsize, Nat.div_eq_of_lt hlt, Nat.add_zero]
    · cases hi
  · rintro ⟨i, hi, rfl⟩
    refine ⟨i % size, ?_⟩
    rw [List.getElem?_take, if_pos (Nat.mod_lt i hsize), List.getElem?_drop, Nat.div_add_mod']
    exact hi

theorem nodup_page {size j : ℕ} {l : List α} (h : l.Nodup) : (page size l j).Nodup :=
  h.sublist ((List.take_sublist _ _).trans (List.drop_sublist _ _))

/-! ## A list for each page -/

variable (cmp : α → α → Ordering)

/-- The rows in some order that puts first what compares less. -/
structure OrderOf (rows l : List α) : Prop where
  perm : l.Perm rows
  sorted : l.Pairwise fun a b => (cmp a b).isLE = true

/-- How many rows come before the row in every order. -/
def before (rows : List α) (x : α) : ℕ := rows.countP fun y => cmp y x = .lt

/-- How many rows do not come after the row in every order, itself included. -/
def upTo (rows : List α) (x : α) : ℕ := rows.countP fun y => (cmp y x).isLE

/-- The rows that compare equal to a row are on one page. -/
def TiesOnOnePage (size : ℕ) (rows : List α) : Prop :=
  ∀ x ∈ rows, before cmp rows x / size = (upTo cmp rows x - 1) / size

variable {cmp} [Std.TransCmp cmp] {rows l : List α}

/-- Where an order may put a row. -/
theorem OrderOf.position (h : OrderOf cmp rows l) {i : ℕ} {x : α} (hx : l[i]? = some x) :
    before cmp rows x ≤ i ∧ i < upTo cmp rows x := by
  obtain ⟨hi, hget⟩ := List.getElem?_eq_some_iff.mp hx
  have hsplit : l = l.take i ++ x :: l.drop (i + 1) := by
    rw [← hget, List.getElem_cons_drop, List.take_append_drop]
  have hlength : (l.take i).length = i := List.length_take_of_le hi.le
  have hsorted := h.sorted
  rw [hsplit, List.pairwise_append, List.pairwise_cons] at hsorted
  obtain ⟨-, ⟨hafter, -⟩, hbefore⟩ := hsorted
  have hself : cmp x x = .eq := Std.ReflCmp.compare_self
  constructor
  · unfold before
    rw [← h.perm.countP_eq, hsplit, List.countP_append]
    have hnone : (x :: l.drop (i + 1)).countP (fun y => cmp y x = .lt) = 0 := by
      rw [List.countP_eq_zero]
      intro y hy hlt
      rw [decide_eq_true_eq] at hlt
      rcases List.mem_cons.mp hy with rfl | hy
      · rw [hself] at hlt
        cases hlt
      · exact Std.OrientedCmp.not_isLE_of_lt hlt (hafter y hy)
    rw [hnone, Nat.add_zero]
    exact List.countP_le_length.trans hlength.le
  · unfold upTo
    rw [← h.perm.countP_eq, hsplit, List.countP_append,
      List.countP_eq_length.mpr fun y hy => hbefore y hy x List.mem_cons_self, hlength,
      List.countP_cons_of_pos (by rw [hself]; rfl)]
    omega

/-- Rows below another have no more before them, nor below them, than it has before it. -/
theorem upTo_le_before {x y : α} (h : cmp y x = .lt) : upTo cmp rows y ≤ before cmp rows x := by
  refine List.countP_mono_left fun z _ hz => ?_
  rw [decide_eq_true_eq]
  exact Std.TransCmp.lt_of_isLE_of_lt hz h

/-- Between the first and the last place an order may put a row, there are the rows that compare equal to it. -/
theorem OrderOf.tied (h : OrderOf cmp rows l) {i : ℕ} {x y : α} (hy : l[i]? = some y)
    (hlow : before cmp rows x ≤ i) (hhigh : i < upTo cmp rows x) : cmp y x = .eq := by
  obtain ⟨hbefore, hupTo⟩ := h.position hy
  cases hcompared : cmp y x with
  | lt =>
      have hle : upTo cmp rows y ≤ before cmp rows x := upTo_le_before hcompared
      omega
  | eq => rfl
  | gt =>
      have hle : upTo cmp rows x ≤ before cmp rows y := upTo_le_before (Std.OrientedCmp.lt_of_gt hcompared)
      omega

/-- Neighbours that compare equal may stand the other way round. -/
theorem OrderOf.swap {first rest : List α} {u v : α} (h : OrderOf cmp rows (first ++ u :: v :: rest))
    (heq : cmp u v = .eq) : OrderOf cmp rows (first ++ v :: u :: rest) := by
  refine ⟨(List.Perm.append_left first (List.Perm.swap u v rest)).trans h.perm, ?_⟩
  have hsorted := h.sorted
  rw [List.pairwise_append, List.pairwise_cons, List.pairwise_cons] at hsorted ⊢
  obtain ⟨hfirst, ⟨hu, hv, hrest⟩, hcross⟩ := hsorted
  refine ⟨hfirst, ⟨fun y hy => ?_, fun y hy => hu y (List.mem_cons_of_mem _ hy), hrest⟩, fun a ha b hb => ?_⟩
  · rcases List.mem_cons.mp hy with rfl | hy
    · rw [Std.OrientedCmp.eq_symm heq]
      rfl
    · exact hv y hy
  · refine hcross a ha b ?_
    rcases List.mem_cons.mp hb with rfl | hb
    · exact List.mem_cons_of_mem _ List.mem_cons_self
    · rcases List.mem_cons.mp hb with rfl | hb
      · exact List.mem_cons_self
      · exact List.mem_cons_of_mem _ (List.mem_cons_of_mem _ hb)

/-- There is an order of the rows. -/
theorem orderOf_mergeSort (rows : List α) :
    OrderOf cmp rows (rows.mergeSort fun a b => (cmp a b).isLE) := by
  refine ⟨List.mergeSort_perm _ _, List.pairwise_mergeSort (fun a b c => Std.TransCmp.isLE_trans) (fun a b => ?_) _⟩
  rw [Bool.or_eq_true]
  cases hcompared : cmp a b with
  | lt => exact .inl rfl
  | eq => exact .inl rfl
  | gt =>
      rw [Std.OrientedCmp.lt_of_gt hcompared]
      exact .inr rfl

/-- A row is on the page that the rows before it fill up to. -/
theorem mem_page_of_ties {size : ℕ} (hsize : 0 < size) (hties : TiesOnOnePage cmp size rows) (h : OrderOf cmp rows l)
    {x : α} (hx : x ∈ rows) {j : ℕ} : x ∈ page size l j ↔ before cmp rows x / size = j := by
  have hplace {i : ℕ} (hi : l[i]? = some x) : i / size = before cmp rows x / size := by
    obtain ⟨hlow, hhigh⟩ := h.position hi
    have hlow' : before cmp rows x / size ≤ i / size := Nat.div_le_div_right hlow
    have hhigh' : i / size ≤ (upTo cmp rows x - 1) / size := Nat.div_le_div_right (by omega)
    rw [← hties x hx] at hhigh'
    exact le_antisymm hhigh' hlow'
  rw [mem_page hsize]
  constructor
  · rintro ⟨i, hi, rfl⟩
    exact (hplace hi).symm
  · rintro rfl
    obtain ⟨i, hi⟩ := List.mem_iff_getElem?.mp (h.perm.mem_iff.mpr hx)
    exact ⟨i, hi, hplace hi⟩

theorem mem_of_mem_page {size j : ℕ} {x : α} (h : x ∈ page size l j) : x ∈ l :=
  List.mem_of_mem_drop (List.mem_of_mem_take h)

/-- Exactly where rows that compare equal are on one page, the pages hold every row once however each of them is
ordered. -/
theorem pages_perm_iff {size : ℕ} (hsize : 0 < size) (hrows : rows.Nodup) :
    (∀ lists : ℕ → List α, (∀ j, OrderOf cmp rows (lists j)) →
        (pages size lists (pageCount size rows.length)).Perm rows) ↔ TiesOnOnePage cmp size rows := by
  constructor
  · intro h x hx
    by_contra hcut
    have hl : OrderOf cmp rows _ := orderOf_mergeSort rows
    generalize rows.mergeSort (fun a b => (cmp a b).isLE) = l at hl
    obtain ⟨i, hi⟩ := List.mem_iff_getElem?.mp (hl.perm.mem_iff.mpr hx)
    obtain ⟨hlow, hhigh⟩ := hl.position hi
    -- The first page boundary among the rows that compare equal to `x`.
    have hpages : before cmp rows x / size < (upTo cmp rows x - 1) / size :=
      lt_of_le_of_ne (Nat.div_le_div_right (by omega)) hcut
    have hboundary : (before cmp rows x / size + 1) * size ≤ upTo cmp rows x - 1 :=
      (Nat.le_div_iff_mul_le hsize).mp hpages
    have habove : before cmp rows x < (before cmp rows x / size + 1) * size := 
      (Nat.div_lt_iff_lt_mul hsize).mp (Nat.lt_succ_self _)
    have hcount : upTo cmp rows x ≤ rows.length := List.countP_le_length
    generalize hj : before cmp rows x / size = j at hboundary habove
    obtain ⟨k, hk⟩ : ∃ k, (j + 1) * size = k + 1 := ⟨(j + 1) * size - 1, by omega⟩
    rw [hk] at hboundary habove
    have hlength := hl.perm.length_eq
    have hu : k < l.length := by omega
    have hv : k + 1 < l.length := by omega
    have hsplit : l = l.take k ++ l[k] :: l[k + 1] :: l.drop (k + 2) := by
      rw [List.getElem_cons_drop, List.getElem_cons_drop, List.take_append_drop]
    have heq : cmp l[k] l[k + 1] = .eq :=
      Std.TransCmp.eq_trans (hl.tied (x := x) (List.getElem?_eq_getElem hu) (by omega) (by omega))
        (Std.OrientedCmp.eq_symm (hl.tied (x := x) (List.getElem?_eq_getElem hv) (by omega) (by omega)))
    have hswapped : OrderOf cmp rows (l.take k ++ l[k + 1] :: l[k] :: l.drop (k + 2)) :=
      OrderOf.swap (hsplit ▸ hl) heq
    -- The last row of the page before the boundary is the first one of the next page as well.
    have hperm := h (fun j' => if j' = j + 1 then l.take k ++ l[k + 1] :: l[k] :: l.drop (k + 2) else l) fun j' => by
      split
      · exact hswapped
      · exact hl
    have hnodup := hperm.nodup_iff.mpr hrows
    unfold pages at hnodup
    rw [List.nodup_flatMap] at hnodup
    have hlast : j + 1 < pageCount size rows.length := (lt_pageCount hsize).mpr (by omega)
    have hdisjoint := List.pairwise_iff_getElem.mp hnodup.2 j (j + 1)
      (by rw [List.length_range]; omega) (by rw [List.length_range]; exact hlast) (Nat.lt_succ_self j)
    dsimp only [Function.onFun] at hdisjoint
    rw [List.getElem_range, List.getElem_range, if_neg (Nat.succ_ne_self j).symm, if_pos rfl] at hdisjoint
    refine hdisjoint (a := l[k]) ((mem_page hsize).mpr ⟨k, List.getElem?_eq_getElem hu, ?_⟩)
      ((mem_page hsize).mpr ⟨k + 1, ?_, by rw [← hk, Nat.mul_div_cancel _ hsize]⟩)
    · have hk' : k = (size - 1) + size * j := by
        rw [Nat.succ_mul, Nat.mul_comm j] at hk
        omega
      rw [hk', Nat.add_mul_div_left _ _ hsize, Nat.div_eq_of_lt (by omega), Nat.zero_add]
    · have htake : (l.take k).length = k := List.length_take_of_le hu.le
      rw [List.getElem?_append_right (by omega), htake, Nat.add_sub_cancel_left]
      rfl
  · intro hties lists hlists
    refine (List.perm_ext_iff_of_nodup ?_ hrows).mpr fun x => ?_
    · unfold pages
      rw [List.nodup_flatMap]
      refine ⟨fun j _ => nodup_page ((hlists j).perm.nodup_iff.mpr hrows), ?_⟩
      refine (List.nodup_range).imp fun {j j'} hne => ?_
      intro x hx hx'
      have hmem := (hlists j).perm.mem_iff.mp (mem_of_mem_page hx)
      rw [mem_page_of_ties hsize hties (hlists _) hmem] at hx hx'
      exact hne (hx.symm.trans hx')
    · unfold pages
      rw [List.mem_flatMap]
      constructor
      · rintro ⟨j, -, hx⟩
        exact (hlists j).perm.mem_iff.mp (mem_of_mem_page hx)
      · intro hx
        refine ⟨before cmp rows x / size, ?_, (mem_page_of_ties hsize hties (hlists _) hx).mpr rfl⟩
        obtain ⟨i, hi⟩ := List.mem_iff_getElem?.mp ((hlists 0).perm.mem_iff.mpr hx)
        have hlow := ((hlists 0).position hi).1
        have hlength := (List.getElem?_eq_some_iff.mp hi).1
        rw [(hlists 0).perm.length_eq] at hlength
        rw [List.mem_range, lt_pageCount hsize]
        exact (Nat.div_mul_le_self _ _).trans_lt (hlow.trans_lt hlength)

end Paging
