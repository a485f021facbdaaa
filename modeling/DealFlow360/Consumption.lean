import DealFlow360.Footprint
import DealFlow360.LifecycleInvariant

/-!
# Taking stock off the shelf

Only `confirm` consumes allocations, and only the ones the quote already has;
but a quote is planned after it is confirmed and never before. So nothing is
ever consumed: a completed quote's allocations stay reserved and its goods stay
on hand.

What each edit does to allocations and stock is read off `Change` and the
frames of the parts: only planning changes the allocations, and only a lock or
a planning writes stock. A quote that is locked has no allocations yet, because
they come after the lock in every run; so a lock consumes an empty list.

- `serveAll_consumed`: no run consumes anything;
- `consumed_once_iff`: a completed quote's allocations were each consumed
  exactly once precisely when it has none.

The planned and completed quote of `shipped_not_consumed` still has its goods
on hand.
-/

namespace DealFlow360

open Program

/-! ## Allocations come after the lock -/

/-- Only a won quote has allocations. -/
def AllocatedWhileWon (q : QuoteAggregate) : Prop := q.allocations ≠ [] → isWon q.quote.status = true

/-- Only planning changes the allocations. -/
theorem Change.allocations {env : Env} {w w' : World} {a b : QuoteAggregate} {op : QuoteEdit}
    (h : Change env w w' a b op) :
    b.allocations = a.allocations ∨ isOpenForPlanning a.quote.status = true := by
  cases h with
  | planned hopen hplanned hstock hconsumed hbody => exact .inr hopen
  | _ =>
      have hbody := ‹b.body = _›
      have hallocations := eq_of_body (fun c => c.allocations) hbody (fun _ => rfl)
      exact .inl hallocations

theorem isWon_of_isOpenForPlanning {status : QuoteStatus} (h : isOpenForPlanning status = true) :
    isWon status = true := by
  revert h
  cases status <;> decide

theorem AllocatedWhileWon.of_core {a b : QuoteAggregate} (h : a.core = b.core)
    (ha : AllocatedWhileWon a) : AllocatedWhileWon b := by
  have hparts := eq_of_core (fun c => (c.allocations, c.quote.status)) h (fun _ => rfl)
  obtain ⟨hallocations, hstatus⟩ := Prod.mk.inj hparts
  unfold AllocatedWhileWon
  rwa [← hallocations, ← hstatus]

theorem allocatedWhileWon_invariant : QuoteInvariant fun _ => AllocatedWhileWon where
  core h ha := ha.of_core h
  mono _ hq := hq
  draft hdraft hne := absurd hdraft.allocations hne
  change {env w w₁ a b op} _ hchange ha := by
    intro hne
    have hwon : isWon a.quote.status = true := by
      rcases hchange.allocations with hsame | hopen
      · exact ha (hsame ▸ hne)
      · exact isWon_of_isOpenForPlanning hopen
    rcases hchange.isWon with ⟨hsame, -⟩ | ⟨hnow, -⟩
    · exact hsame.trans hwon
    · exact hnow

theorem AllocatedWhileWon.of_approved {q : QuoteAggregate} (h : AllocatedWhileWon q)
    (hstatus : q.quote.status = .approved) : q.allocations = [] := by
  by_contra hne
  have hwon := h hne
  rw [hstatus] at hwon
  cases hwon

/-! ## No edit consumes -/

theorem consumeAllocations_nil {a : QuoteAggregate} (h : a.allocations = []) :
    consumeAllocations a = pure PUnit.unit := by
  unfold consumeAllocations
  rw [h]
  rfl

/-- A lock of a quote without allocations leaves the stock alone. -/
theorem keeps_quiet_confirm (env : Env) (quoteId : Id) (actor : Actor) (version : ℕ)
    {a : QuoteAggregate} (ha : AllocatedWhileWon a) :
    Keeps QuietFrame ((confirm env quoteId actor version).edit a) := by
  unfold confirm
  dsimp only
  refine @Keeps.bind _ _ _ _ _ _ _ _ _ fun _ => @Keeps.bind _ _ _ _ _ _ _ _ _ fun _ =>
    @Keeps.ite _ _ _ _ _ _ _ _ _ ?_
  refine Keeps.bind_of inferInstance fun _ _ _ hguard => ?_
  have hnone : a.allocations = [] := ha.of_approved (not_not.mp (throwIf_eq_ok.mp hguard).1)
  refine @Keeps.bind _ _ _ _ _ _ _ _ _ fun _ => Keeps.bind_of inferInstance fun _ _ _ hrefresh => ?_
  obtain ⟨hbody, -⟩ := body_of_refresh hrefresh
  rw [consumeAllocations_nil ((eq_of_body (fun c => c.allocations) hbody (fun _ => rfl)).trans hnone)]
  infer_instance

/-- Where the allocations so far were made after the lock, only planning writes stock. -/
theorem keeps_quiet_unplanned (env : Env) {op : QuoteEdit} {a : QuoteAggregate}
    (ha : AllocatedWhileWon a)
    (hop : ∀ quoteId overrides version, op ≠ .planFulfillment quoteId overrides version) :
    Keeps QuietFrame ((op.mutation env).edit a) := by
  cases op with
  | planFulfillment quoteId overrides version => exact absurd rfl (hop quoteId overrides version)
  | confirm quoteId actor version => exact keeps_quiet_confirm env quoteId actor version ha
  | _ => exact keeps_quiet env rfl a

/-- What is consumed stays as it is. -/
def ConsumedKept (w w' : World) : Prop := w'.consumed = w.consumed

instance : Std.Refl ConsumedKept := ⟨fun _ => rfl⟩

instance : IsTrans World ConsumedKept := ⟨fun _ _ _ h₁ h₂ => h₂.trans h₁⟩

theorem keeps_consumed (env : Env) (op : QuoteEdit) {a : QuoteAggregate} (ha : AllocatedWhileWon a) :
    Keeps ConsumedKept ((op.mutation env).edit a) := by
  cases op with
  | planFulfillment quoteId overrides version =>
      have hids (count : ℕ) : Keeps ConsumedKept (randomUUIDs count) :=
        Keeps.mono inferInstance fun _ _ => QuietFrame.consumed
      have hwrite (stock : List StockLevel) :
          Keeps ConsumedKept (updateStore (Store.replaceStock stock)) := .write fun _ => rfl
      show Keeps ConsumedKept (some <$> _)
      dsimp only
      infer_instance
  | _ => exact (keeps_quiet_unplanned env ha (by simp)).mono fun _ _ => QuietFrame.consumed

/-! ## No request consumes -/

theorem consumedKept_footprint : Footprint ConsumedKept where
  refl _ := rfl
  trans _ _ _ h₁ h₂ := h₂.trans h₁
  quiet h := h.consumed
  tail h := h.consumed
  save _ _ := rfl
  delete _ _ := rfl

theorem serve_consumed {w : World} (hw : ∀ q ∈ w.store.quotes, AllocatedWhileWon q)
    (options : Options) (request : Request) :
    (serve options w request).consumed = w.consumed := by
  cases hop : request.operation with
  | edit op =>
      refine consumedKept_footprint.serve_edit hop fun q a _ hq => ?_
      exact keeps_consumed _ op ((hw q hq.mem).of_core hq.core.symm)
  | catalog op =>
      have hkeeps := keeps_catalog (request.env options) op
      unfold serve Request.program
      rw [hop]
      exact (hkeeps.keeps w).consumed
  | _ => exact consumedKept_footprint.serve options w (by rw [hop]; rfl)

/-- No run consumes anything. -/
theorem serveAll_consumed {w₀ : World} (hfresh : w₀.Fresh) (options : Options)
    (requests : List Request) : (serveAll options w₀ requests).consumed = [] := by
  have hstep (w : World) (request : Request)
      (h : (∀ q ∈ w.store.quotes, AllocatedWhileWon q) ∧ w.consumed = []) :
      (∀ q ∈ (serve options w request).store.quotes, AllocatedWhileWon q) ∧
        (serve options w request).consumed = [] :=
    ⟨allocatedWhileWon_invariant.serve h.1, (serve_consumed h.1 options request).trans h.2⟩
  refine (Machine.invariant hstep ⟨?_, hfresh.consumed⟩ requests).2
  rw [hfresh.quotes]
  exact fun q hq => absurd hq List.not_mem_nil

/-- In every run, a completed quote's allocations were each consumed exactly once precisely when it
has none to consume. -/
theorem consumed_once_iff (options : Options) (w₀ : World) (hfresh : w₀.Fresh)
    (requests : List Request) (q : QuoteAggregate) :
    let w := serveAll options w₀ requests
    q ∈ w.store.quotes → q.quote.status = .completed →
      ((∀ split ∈ q.allocations, split.isBackorder = false → w.consumed.count split = 1) ↔
        ∀ split ∈ q.allocations, split.isBackorder = true) := by
  intro w hq hstatus
  have hconsumed : w.consumed = [] := serveAll_consumed hfresh options requests
  rw [hconsumed]
  constructor
  · intro hall split hsplit
    by_contra hbackorder
    have hcount := hall split hsplit (Bool.eq_false_iff.mpr hbackorder)
    rw [List.count_nil] at hcount
    cases hcount
  · intro hall split hsplit hno
    rw [hall split hsplit] at hno
    cases hno

/-- A deal closed without ever being planned has nothing to consume. -/
theorem consumed_once_unplanned :
    let w := serveAll plainOptions startWorld
      (lockedDeal [{ productId := 11, quantity := 2, discountPercent := 0 }]
        ++ [{ operation := .edit (.complete 100 5) }])
    ∃ q ∈ w.store.quotes, q.quote.status = .completed ∧
      ∀ split ∈ q.allocations, split.isBackorder = false → w.consumed.count split = 1 := by
  intro w
  have hfind : ∃ q ∈ w.store.quotes, q.quote.status = .completed ∧
      ∀ split ∈ q.allocations, split.isBackorder = true := by decide +kernel
  obtain ⟨q, hq, hstatus, hbackorder⟩ := hfind
  exact ⟨q, hq, hstatus, (consumed_once_iff plainOptions startWorld startWorld_fresh _ q hq
    hstatus).mpr hbackorder⟩

/-- Two gateways sold, planned, billed and completed. -/
def shippedDeal : List Request :=
  lockedDeal [{ productId := 11, quantity := 2, discountPercent := 0 }] ++
    [{ operation := .edit (.planFulfillment 100 [] 5) },
     { operation := .edit (.generateBilling 100 6) },
     { operation := .edit (.complete 100 7) }]

/-- The two gateways of the completed quote are still on hand and still reserved. -/
theorem shipped_not_consumed :
    let w := serveAll plainOptions startWorld shippedDeal
    (∃ q ∈ w.store.quotes, q.quote.status = .completed ∧
      ∃ split ∈ q.allocations, split.isBackorder = false ∧ w.consumed.count split = 0) ∧
      (findRow w.store.stock (21, 11)).map (·.quantityOnHand)
        = (findRow startWorld.store.stock (21, 11)).map (·.quantityOnHand) ∧
      (findRow w.store.stock (21, 11)).map (·.reserved) = some 2 := by
  decide +kernel

end DealFlow360
