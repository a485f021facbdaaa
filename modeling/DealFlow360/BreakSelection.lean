import DealFlow360.GovernanceConfig
import DealFlow360.Lib.Lists
import DealFlow360.Lib.Program
import DealFlow360.Pricing

/-!
# The one break that applies

The validator refuses active breaks of one product and tier whose ranges meet.
A quantity is then in the range of one break of a tier at most, and the price
does not depend on the order of the breaks.

The source filters and then sorts by a comparison. The comparison is that of a
lexicographic score (`breakScore`), so the selection is an `argmax` and depends
on the candidates as a set:

- `pairwise_of_validated` and `one_candidate`: of each tier at most one
  candidate;
- `selectQuantityBreak_perm`: the same break in every order of the list;
- `selectQuantityBreak_of_tier`: a candidate of the tier goes before a general
  one;
- `resolveUnitPrice_of_selected`: the price, the name and the id that the
  winning break gives.

`quantity_breaks_unambiguous` puts them together for every accepted list,
product, quantity and tier.
-/

namespace DealFlow360

open Program

/-! ## Selecting -/

/-- The breaks whose range holds the quantity. -/
def candidateBreaks (breaks : List QuantityBreak) (productId : Id) (quantity : Num)
    (customerTier : Option CustomerTier) : List QuantityBreak :=
  (matchingQuantityBreaks breaks productId customerTier).filter fun item =>
    item.minQuantity ≤ quantity && item.maxQuantity.all (quantity ≤ ·)

/-- What the selection looks for most of. -/
def breakScore (item : QuantityBreak) : Num ×ₗ Num :=
  toLex (if item.customerTier.isSome then 1 else 0, item.minQuantity)

theorem compareBreaks_nonpos (left right : QuantityBreak) :
    compareBreaks left right ≤ 0 ↔ breakScore right ≤ breakScore left := by
  unfold compareBreaks breakScore
  rw [Prod.Lex.toLex_le_toLex]
  dsimp only
  by_cases hspec : (if right.customerTier.isSome then (1 : Num) else 0) -
      (if left.customerTier.isSome then 1 else 0) = 0
  · rw [if_neg (not_not.mpr hspec), sub_eq_zero.mp hspec]
    simp only [lt_self_iff_false, true_and, false_or]
    exact sub_nonpos
  · rw [if_pos hspec, sub_nonpos]
    constructor
    · intro hle
      exact .inl (lt_of_le_of_ne hle (sub_ne_zero.mp hspec))
    · rintro (hlt | ⟨heq, -⟩)
      · exact hlt.le
      · exact heq.le

theorem selectQuantityBreak_eq (breaks : List QuantityBreak) (productId : Id) (quantity : Num)
    (customerTier : Option CustomerTier) :
    selectQuantityBreak breaks productId quantity customerTier =
      (candidateBreaks breaks productId quantity customerTier).argmax breakScore := by
  have hranked := sortBy_eq_ranked compareBreaks_nonpos
    (candidateBreaks breaks productId quantity customerTier)
  rw [← Top.head?_ranked, ← hranked]
  rfl

/-! ## What the validator leaves -/

theorem firstOverlap_eq_none {items : List QuantityBreak} :
    firstOverlap items = none ↔ items.Pairwise fun left right => overlaps left right = false := by
  induction items with
  | nil => exact iff_of_true rfl .nil
  | cons left rest ih =>
      rw [List.pairwise_cons, firstOverlap]
      cases hfound : rest.find? (overlaps left) with
      | none =>
          rw [← ih]
          have hnone : ∀ right ∈ rest, overlaps left right = false := by
            intro right hright
            rw [← Bool.not_eq_true]
            exact List.find?_eq_none.mp hfound right hright
          exact (and_iff_right hnone).symm
      | some right =>
          refine iff_of_false nofun fun h => ?_
          have hoverlaps := List.find?_some hfound
          rw [h.1 right (List.mem_of_find?_eq_some hfound)] at hoverlaps
          cases hoverlaps

/-- A break as the validator stores it. -/
def storedBreak (item : QuantityBreak) : QuantityBreak :=
  { item with name := trim item.name, active := some (item.active ≠ some false) }

theorem normalizeQuantityBreak_eq_ok {item stored : QuantityBreak} {index : ℕ}
    (h : normalizeQuantityBreak item index = .ok stored) : stored = storedBreak item := by
  unfold normalizeQuantityBreak at h
  obtain ⟨_, -, h⟩ := except_bind_eq_ok.mp h
  exact (Except.ok.inj h).symm

theorem overlaps_storedBreak (left right : QuantityBreak) :
    overlaps (storedBreak left) (storedBreak right) = overlaps left right := by
  unfold overlaps storedBreak
  dsimp only

/-- An accepted list is stored break by break, and no two active breaks of what is stored overlap. -/
theorem validateQuantityBreaks_eq_ok {items normalized : List QuantityBreak}
    (h : validateQuantityBreaks items = .ok normalized) :
    normalized = items.map storedBreak ∧ firstOverlap (normalized.filter (·.active = some true)) = none := by
  unfold validateQuantityBreaks at h
  obtain ⟨kept, hkept, h⟩ := except_bind_eq_ok.mp h
  have hstored : kept = items.map storedBreak := by
    have hmap := except_mapM_map (g := id) (h := fun entry : QuantityBreak × ℕ => storedBreak entry.1)
      (fun _ _ hok => normalizeQuantityBreak_eq_ok hok) hkept
    have hzip : (items.zipIdx.map Prod.fst).map storedBreak = items.map storedBreak :=
      congrArg _ (List.zipIdx_map_fst 0 items)
    rw [List.map_id, ← Function.comp_def storedBreak, ← List.map_map] at hmap
    exact hmap.trans hzip
  split at h
  · cases h
  · rename_i hnone
    obtain rfl := Except.ok.inj h
    exact ⟨hstored, hnone⟩

/-- Active breaks of an accepted list do not overlap. -/
theorem pairwise_of_validated {items normalized : List QuantityBreak}
    (h : validateQuantityBreaks items = .ok normalized) :
    (items.filter fun item => item.active ≠ some false).Pairwise fun left right => overlaps left right = false := by
  obtain ⟨hstored, hnone⟩ := validateQuantityBreaks_eq_ok h
  have hactive : (fun item => decide (item.active = some true)) ∘ storedBreak =
      fun item => decide (item.active ≠ some false) := by
    funext item
    simp [storedBreak]
  rw [hstored, List.filter_map, hactive, firstOverlap_eq_none, List.pairwise_map] at hnone
  simp only [overlaps_storedBreak] at hnone
  exact hnone

/-! ## At most one -/

theorem mem_candidateBreaks {breaks : List QuantityBreak} {productId : Id} {quantity : Num}
    {customerTier : Option CustomerTier} {item : QuantityBreak} :
    item ∈ candidateBreaks breaks productId quantity customerTier ↔
      item ∈ breaks ∧ item.active ≠ some false ∧ item.productId = productId ∧
        (item.customerTier = none ∨ item.customerTier = customerTier) ∧
          item.minQuantity ≤ quantity ∧ item.maxQuantity.all (quantity ≤ ·) = true := by
  simp only [candidateBreaks, matchingQuantityBreaks, List.mem_filter, Bool.and_eq_true, Bool.or_eq_true,
    decide_eq_true_eq, and_assoc]

/-- Two breaks of one tier that apply to a quantity have ranges that meet. -/
theorem overlaps_of_candidates {breaks : List QuantityBreak} {productId : Id} {quantity : Num}
    {customerTier : Option CustomerTier} {left right : QuantityBreak}
    (hleft : left ∈ candidateBreaks breaks productId quantity customerTier)
    (hright : right ∈ candidateBreaks breaks productId quantity customerTier)
    (htier : left.customerTier = right.customerTier) : overlaps left right = true := by
  obtain ⟨-, -, hproduct, -, hmin, hmax⟩ := mem_candidateBreaks.mp hleft
  obtain ⟨-, -, hproduct', -, hmin', hmax'⟩ := mem_candidateBreaks.mp hright
  have hreach : ∀ {least : Num} {most : Option Num}, least ≤ quantity → most.all (quantity ≤ ·) = true →
      most.all (least ≤ ·) = true := by
    intro least most hleast hmost
    cases most with
    | none => rfl
    | some most => exact decide_eq_true (hleast.trans (of_decide_eq_true hmost))
  unfold overlaps
  rw [hproduct, hproduct', htier, hreach hmin hmax', hreach hmin' hmax, decide_eq_true rfl, decide_eq_true rfl]
  rfl

theorem candidates_sublist (breaks : List QuantityBreak) (productId : Id) (quantity : Num)
    (customerTier : Option CustomerTier) :
    (candidateBreaks breaks productId quantity customerTier).Sublist
      (breaks.filter fun item => item.active ≠ some false) := by
  unfold candidateBreaks matchingQuantityBreaks
  rw [List.filter_filter]
  refine List.monotone_filter_right breaks fun item h => ?_
  simp only [Bool.and_eq_true, decide_eq_true_eq] at h
  exact decide_eq_true h.2.1.1

section Validated

variable {items normalized : List QuantityBreak} {productId : Id} {quantity : Num}
  {customerTier : Option CustomerTier}

theorem one_candidate (h : validateQuantityBreaks items = .ok normalized) (tier : Option CustomerTier) :
    (candidateBreaks items productId quantity customerTier).countP (·.customerTier = tier) ≤ 1 := by
  refine Lists.countP_le_one ((pairwise_of_validated h).sublist (candidates_sublist _ _ _ _))
    fun left hleft right hright hp hp' hoverlaps => ?_
  have htier := (of_decide_eq_true hp).trans (of_decide_eq_true hp').symm
  rw [overlaps_of_candidates hleft hright htier] at hoverlaps
  cases hoverlaps

/-- Candidates of one score are one. -/
theorem eq_of_score (h : validateQuantityBreaks items = .ok normalized) {left right : QuantityBreak}
    (hleft : left ∈ candidateBreaks items productId quantity customerTier)
    (hright : right ∈ candidateBreaks items productId quantity customerTier)
    (hscore : breakScore left = breakScore right) : left = right := by
  have hspec : (if left.customerTier.isSome then (1 : Num) else 0) = if right.customerTier.isSome then 1 else 0 :=
    congrArg (fun score => (ofLex score).1) hscore
  obtain ⟨-, -, -, htier, -⟩ := mem_candidateBreaks.mp hleft
  obtain ⟨-, -, -, htier', -⟩ := mem_candidateBreaks.mp hright
  have hsame : left.customerTier = right.customerTier := by
    rcases htier with htier | htier <;> rcases htier' with htier' | htier' <;> rw [htier, htier'] <;>
      rw [htier, htier'] at hspec <;> cases customerTier <;> simp at hspec ⊢
  exact Lists.eq_of_one (one_candidate h right.customerTier) hleft hright (decide_eq_true hsame) (decide_eq_true rfl)

/-- The breaks of an accepted list select alike in every order. -/
theorem selectQuantityBreak_perm (h : validateQuantityBreaks items = .ok normalized) {other : List QuantityBreak}
    (hperm : other.Perm items) :
    selectQuantityBreak other productId quantity customerTier =
      selectQuantityBreak items productId quantity customerTier := by
  have hcandidates : (candidateBreaks other productId quantity customerTier).Perm
      (candidateBreaks items productId quantity customerTier) :=
    (hperm.filter _).filter _
  rw [selectQuantityBreak_eq, selectQuantityBreak_eq]
  cases hselected : (candidateBreaks other productId quantity customerTier).argmax breakScore with
  | none =>
      rw [List.argmax_eq_none] at hselected
      rw [hselected] at hcandidates
      rw [hcandidates.nil_eq.symm, List.argmax_nil]
  | some item =>
      cases hselected' : (candidateBreaks items productId quantity customerTier).argmax breakScore with
      | none =>
          rw [List.argmax_eq_none] at hselected'
          rw [hselected'] at hcandidates
          rw [hcandidates.eq_nil] at hselected
          cases hselected
      | some item' =>
          have hmem := hcandidates.mem_iff.mp (List.argmax_mem hselected)
          have hmem' := List.argmax_mem hselected'
          have hle := List.le_of_mem_argmax (hcandidates.mem_iff.mpr hmem') hselected
          have hle' := List.le_of_mem_argmax hmem hselected'
          rw [eq_of_score h hmem hmem' (le_antisymm hle' hle)]

end Validated

/-- What a winning break makes of a product's price. -/
def priceOf (item : QuantityBreak) (product : Product) : UnitPrice where
  unitPrice :=
    match item.adjustmentKind with
    | .percent => round (product.listPrice * (1 + item.adjustmentValue / 100)) 2
    | .fixed => item.adjustmentValue
  ruleName := item.name
  breakId := some item.id

theorem resolveUnitPrice_of_selected {breaks : List QuantityBreak} {product : Product} {quantity : Num}
    {customerTier : Option CustomerTier} {item : QuantityBreak}
    (h : selectQuantityBreak breaks product.id quantity customerTier = some item) :
    resolveUnitPrice product quantity breaks customerTier = priceOf item product := by
  unfold resolveUnitPrice priceOf
  rw [h]
  dsimp only
  cases item.adjustmentKind with
  | percent => rfl
  | fixed => rfl

/-- A candidate of a tier is what is selected from an accepted list. -/
theorem selectQuantityBreak_of_tier {items normalized : List QuantityBreak}
    (h : validateQuantityBreaks items = .ok normalized) {productId : Id} {quantity : Num}
    {customerTier : Option CustomerTier} {item : QuantityBreak}
    (hitem : item ∈ candidateBreaks items productId quantity customerTier) (htier : item.customerTier.isSome = true) :
    selectQuantityBreak items productId quantity customerTier = some item := by
  rw [selectQuantityBreak_eq]
  cases hselected : (candidateBreaks items productId quantity customerTier).argmax breakScore with
  | none =>
      rw [List.argmax_eq_none] at hselected
      rw [hselected] at hitem
      cases hitem
  | some selected =>
      have hmem := List.argmax_mem hselected
      have hle := List.le_of_mem_argmax hitem hselected
      obtain ⟨-, -, -, htier', -⟩ := mem_candidateBreaks.mp hitem
      obtain ⟨-, -, -, htier'', -⟩ := mem_candidateBreaks.mp hmem
      have hsome : selected.customerTier.isSome = true := by
        by_contra hnone
        unfold breakScore at hle
        rw [Prod.Lex.toLex_le_toLex, if_pos htier, if_neg hnone] at hle
        rcases hle with hlt | ⟨heq, -⟩
        · exact absurd hlt (by norm_num)
        · exact absurd heq (by norm_num)
      have hsame : selected.customerTier = item.customerTier := by
        rcases htier' with hnone | hitem'
        · rw [hnone] at htier
          cases htier
        · rcases htier'' with hnone | hselected'
          · rw [hnone] at hsome
            cases hsome
          · rw [hitem', hselected']
      exact congrArg some (Lists.eq_of_one (one_candidate h item.customerTier) hmem hitem (decide_eq_true hsame)
        (decide_eq_true rfl))

/-- For every product, quantity and tier, an accepted list has one break of a tier that applies at most, prices alike
in every order, and has a break of the tier go before a general one: the price is what that break makes of it. -/
theorem quantity_breaks_unambiguous {items normalized : List QuantityBreak}
    (h : validateQuantityBreaks items = .ok normalized) (product : Product) (quantity : Num)
    (customerTier : Option CustomerTier) :
    (∀ tier, (candidateBreaks items product.id quantity customerTier).countP (·.customerTier = tier) ≤ 1) ∧
      (∀ other : List QuantityBreak, other.Perm items →
        resolveUnitPrice product quantity other customerTier =
          resolveUnitPrice product quantity items customerTier) ∧
      ∀ item ∈ candidateBreaks items product.id quantity customerTier, item.customerTier.isSome = true →
        selectQuantityBreak items product.id quantity customerTier = some item ∧
          resolveUnitPrice product quantity items customerTier = priceOf item product := by
  refine ⟨one_candidate h, fun other hperm => ?_, fun item hitem htier => ?_⟩
  · unfold resolveUnitPrice
    rw [selectQuantityBreak_perm h hperm]
  · have hselected := selectQuantityBreak_of_tier h hitem htier
    exact ⟨hselected, resolveUnitPrice_of_selected hselected⟩

/-- A general break from ten on, and one of the gold tier up to twenty. -/
def tenAndMore : QuantityBreak where
  id := 1
  name := "Ten and more"
  productId := 7
  minQuantity := 10
  adjustmentKind := .percent
  adjustmentValue := -5

def goldUpToTwenty : QuantityBreak where
  id := 2
  name := "Gold"
  productId := 7
  customerTier := some .gold
  minQuantity := 1
  maxQuantity := some 20
  adjustmentKind := .fixed
  adjustmentValue := 80

def laptop : Product where
  id := 7
  name := "Laptop"
  sku := "LT-7"
  category := "hardware"
  listPrice := 100
  cost := 60
  billingType := .oneTime

theorem gold_goes_first :
    (∀ other : List QuantityBreak, other.Perm [tenAndMore, goldUpToTwenty] →
        resolveUnitPrice laptop 12 other (some .gold) =
          resolveUnitPrice laptop 12 [tenAndMore, goldUpToTwenty] (some .gold)) ∧
      selectQuantityBreak [tenAndMore, goldUpToTwenty] laptop.id 12 (some .gold) = some goldUpToTwenty ∧
      resolveUnitPrice laptop 12 [tenAndMore, goldUpToTwenty] (some .gold)
        = { unitPrice := 80, ruleName := "Gold", breakId := some 2 } := by
  have hvalid : validateQuantityBreaks [tenAndMore, goldUpToTwenty] =
      .ok [storedBreak tenAndMore, storedBreak goldUpToTwenty] := rfl
  obtain ⟨-, hperm, hfirst⟩ := quantity_breaks_unambiguous hvalid laptop 12 (some .gold)
  exact ⟨hperm, hfirst goldUpToTwenty (by decide) rfl⟩

end DealFlow360
