import DealFlow360.LifecycleInvariant

/-!
# The approval behind a lock

`confirm` asks two questions: whether the required approvals are all there, and
whether the quote is rejected by today's rules. An empty list of approvals
answers the first with yes, whatever today's rules ask for. So the lock has the
approval it needs exactly when the quote went through a round, or when today's
rules ask for none.

`submitted_status` says that a submit builds pending steps or none, so in every
run no step of a stored quote is skipped unless it was approved without a
round. `lock_checks` inverts a served `confirm`.

- `lock_approved_iff`: in every run, the lock of an approved quote has the
  approval that today's assessment asks for, exactly when the quote went
  through a round or today's rules ask for none;
- `lock_without_approval`: the rules are tightened between approval and lock.
-/

namespace DealFlow360

open Program

/-- The decision `confirm` would come to for a stored quote: its lines, today's catalog and rules, and
its customer's current tier. -/
def reassessedDecision (options : Options) (store : Store) (q : QuoteAggregate) :
    Option DiscountDecision :=
  match store.getCustomer q.quote.customerId, pairProducts store q.lines with
  | some customer, .ok pairs =>
      some (assessQuote (assessmentInput options store customer.tier pairs)).decision
  | _, _ => none

/-- Nothing to approve, or a round with at least one counting step and every such step approved. -/
def ApprovedAsRequired (options : Options) (store : Store) (q : QuoteAggregate) : Prop :=
  (reassessedDecision options store q = some .allowed ∨
      reassessedDecision options store q = some .warning) ∨
    q.approvals ≠ [] ∧ requiredApprovals q.approvals ≠ [] ∧
      ∀ step ∈ requiredApprovals q.approvals, step.status = .approved

instance (options : Options) (store : Store) (q : QuoteAggregate) :
    Decidable (ApprovedAsRequired options store q) :=
  inferInstanceAs (Decidable ((_ ∨ _) ∨ _ ∧ _ ∧ _))

/-- Today's catalog and rules ask for no approval of a stored quote. -/
def ClearToday (options : Options) (store : Store) (q : QuoteAggregate) : Prop :=
  ∃ customer pairs, store.getCustomer q.quote.customerId = some customer ∧
    pairProducts store q.lines = .ok pairs ∧
    NeedsNoApproval (assessmentInput options store customer.tier pairs)

theorem reassessedDecision_clear {options : Options} {store : Store} {q : QuoteAggregate} :
    (reassessedDecision options store q = some .allowed ∨
      reassessedDecision options store q = some .warning) ↔ ClearToday options store q := by
  unfold reassessedDecision ClearToday
  cases hcustomer : store.getCustomer q.quote.customerId with
  | none => simp
  | some customer =>
      cases hpairs : pairProducts store q.lines with
      | error e => simp
      | ok pairs => simp [← decision_assessQuote_iff]

/-! ## No stored step is skipped -/

def NoneSkipped (q : QuoteAggregate) : Prop := ∀ step ∈ q.approvals, step.status ≠ .skipped

theorem settle_status_ne_skipped (call : DecisionCall) (current : QuoteApproval)
    {item : QuoteApproval} (h : item.status ≠ .skipped) :
    (call.settle current item).status ≠ .skipped := by
  unfold DecisionCall.settle
  split
  · split
    · exact nofun
    · exact h
  · show call.decision.status ≠ .skipped
    cases call.decision <;> exact nofun

/-- A submit builds pending steps or none: an assessment that needs no approval selects no chain. -/
theorem submitted_status {options : Options} {store : Store} {tier : CustomerTier}
    {pairs : List (QuoteLine × Product)} {uuid : ℕ → Id} {now : Timestamp} {quoteId : Id}
    {actor : Actor} {maxLevels : Num} {approvals : List QuoteApproval}
    (h : autoApproveIfAllowed uuid now quoteId
      (assessQuote (assessmentInput options store tier pairs))
      (findChain store (assessQuote (assessmentInput options store tier pairs))) actor maxLevels
        = .ok approvals) :
    ∀ step ∈ approvals, step.status = .pending := by
  refine autoApproveIfAllowed_status (fun hdecision => ?_) h
  unfold findChain
  rw [requiredChainId_eq_none hdecision]
  rfl

theorem noneSkipped_invariant : QuoteInvariant fun _ => NoneSkipped where
  core h ha := by
    have happrovals := eq_of_core (fun c => c.approvals) h (fun _ => rfl)
    unfold NoneSkipped
    rwa [← happrovals]
  mono _ hq := hq
  draft hdraft := by
    unfold NoneSkipped
    rw [hdraft.approvals]
    exact fun step hstep => absurd hstep List.not_mem_nil
  change _ hchange ha := by
    unfold NoneSkipped at ha ⊢
    cases hchange with
    | submitted hfinalized hpairs hdecision happrovals hbody =>
        rw [eq_of_body (fun c => c.approvals) hbody (fun _ => rfl)]
        intro step hstep
        rw [submitted_status happrovals step hstep]
        exact nofun
    | decided hwaiting hcall happrovals htarget hbody =>
        rw [eq_of_body (fun c => c.approvals) hbody (fun _ => rfl)]
        obtain ⟨current, -, -, -, -, rfl⟩ := applyApprovalDecision_eq_ok.mp happrovals
        intro step hstep
        obtain ⟨item, hitem, rfl⟩ := List.mem_map.mp hstep
        exact settle_status_ne_skipped _ current (ha item hitem)
    | _ =>
        have hbody := ‹_ = QuoteAggregate.body _›
        have happrovals := eq_of_body (fun c => c.approvals) hbody (fun _ => rfl)
        rw [happrovals]
        exact ha

/-! ## The lock -/

/-- A `confirm` that answers without saving was sent for a quote that is locked already. -/
theorem locked_of_confirm_idle {env : Env} {quoteId : Id} {actor : Actor} {version : ℕ}
    {a : QuoteAggregate} {w w' : World}
    (h : (confirm env quoteId actor version).edit a w = .ok none w') :
    a.quote.financeLockedAt.isSome = true := by
  simp only [confirm, bind_eq_ok, throwIf_eq_ok, assertExpectedVersion_eq_ok] at h
  obtain ⟨_, _, ⟨-, rfl⟩, _, _, ⟨-, rfl⟩, h⟩ := h
  split at h
  · assumption
  · simp only [bind_eq_ok, pure_eq_ok] at h
    obtain ⟨_, _, -, _, _, -, _, _, -, _, _, -, _, _, -, _, _, -, hnone, -⟩ := h
    cases hnone

/-- A served `confirm` of an approved quote found no approval missing. -/
theorem lock_checks {options : Options} {w : World} {request : Request} {q : QuoteAggregate}
    {actor : Actor} {version : ℕ} (hw : w.Indexed) (hq : q ∈ w.store.quotes)
    (hlock : LockedWhileWon q) (hstatus : q.quote.status = .approved)
    (hop : request.operation = .lockDeal q.id actor version)
    (hok : succeeds options w request = true) : allRequiredApproved q.approvals = true := by
  obtain ⟨a, edited, w₁, hload, hedit⟩ := edit_of_succeeds hop hok
  obtain ⟨q₀, hq₀, hid⟩ := loaded_of_load hload
  obtain rfl := hw.eq_of_id hq₀.mem hq hid
  cases edited with
  | none =>
      have hlocked := locked_of_confirm_idle hedit
      rw [hq₀.quote] at hlocked
      have hwon := hlock.mp hlocked
      rw [hstatus] at hwon
      cases hwon
  | some b =>
      cases change_of_edit _ hedit with
      | locked saleOrder happroved hunlocked hall hpairs hdecision hconsumed hmoves hplanned hbody =>
          rw [← hq₀.approvals]
          exact hall
      | commercial hop => cases hop
      | proposed active hop => cases hop
      | moved active frozenAt frozenBy hop => cases hop
      | answered decision decidedAt comment decidedVersion active hop => cases hop

/-- With every counting step approved and none skipped, a round that exists has such a step. -/
theorem requiredApprovals_of_noneSkipped {approvals : List QuoteApproval}
    (hskipped : ∀ step ∈ approvals, step.status ≠ .skipped)
    (hall : allRequiredApproved approvals = true) (hne : approvals ≠ []) :
    requiredApprovals approvals ≠ [] ∧
      ∀ step ∈ requiredApprovals approvals, step.status = .approved := by
  unfold allRequiredApproved at hall
  dsimp only at hall
  split at hall
  · rename_i hempty
    obtain ⟨step, hstep⟩ := List.exists_mem_of_ne_nil _ hne
    simp only [Bool.or_eq_true, List.isEmpty_iff, hne, false_or, List.all_eq_true,
      decide_eq_true_eq] at hall
    exact absurd (hall step hstep) (hskipped step hstep)
  · rename_i hrequired
    simp only [List.all_eq_true, decide_eq_true_eq] at hall
    exact ⟨by simpa using hrequired, hall⟩

/-- In every run, the lock of an approved quote has the approval it needs exactly when the quote went
through a round or today's rules ask for none. -/
theorem lock_approved_iff (options : Options) (w₀ : World) (hfresh : w₀.Fresh)
    (requests : List Request) (request : Request) (q : QuoteAggregate) (actor : Actor)
    (version : ℕ) :
    let w := serveAll options w₀ requests
    q ∈ w.store.quotes → q.quote.status = .approved →
      request.operation = .lockDeal q.id actor version → succeeds options w request = true →
      (ApprovedAsRequired options w.store q ↔ q.approvals ≠ [] ∨ ClearToday options w.store q) := by
  intro w hq hstatus hop hok
  have hw : w.Indexed := hfresh.indexed.serveAll options requests
  have hlock : LockedWhileWon q := lockedWhileWon_invariant.of_fresh hfresh requests q hq
  have hskipped : NoneSkipped q := noneSkipped_invariant.of_fresh hfresh requests q hq
  have hall := lock_checks hw hq hlock hstatus hop hok
  unfold ApprovedAsRequired
  rw [reassessedDecision_clear]
  constructor
  · rintro (hclear | ⟨hne, -⟩)
    · exact .inr hclear
    · exact .inl hne
  · rintro (hne | hclear)
    · exact .inr ⟨hne, requiredApprovals_of_noneSkipped hskipped hall hne⟩
    · exact .inl hclear

/-- Two gateways, approved because the rules asked for nothing. -/
def gatewayDeal : List Request := approvedDeal [{ productId := 11, quantity := 2, discountPercent := 0 }]

/-- While the rules stay as they are, the lock of that quote is approved as required. -/
theorem lock_approved_gateways :
    let w := serveAll plainOptions startWorld gatewayDeal
    ∃ q ∈ w.store.quotes, ApprovedAsRequired plainOptions w.store q := by
  intro w
  have hfind : ∃ q ∈ w.store.quotes, q.quote.status = .approved ∧ q.id = 100 ∧
      (reassessedDecision plainOptions w.store q = some .allowed ∨
        reassessedDecision plainOptions w.store q = some .warning) := by decide +kernel
  obtain ⟨q, hq, hstatus, hid, hclear⟩ := hfind
  have hok : succeeds plainOptions w { operation := .lockDeal q.id administrator 4 } = true := by
    rw [hid]
    decide +kernel
  refine ⟨q, hq, ?_⟩
  exact (lock_approved_iff plainOptions startWorld startWorld_fresh gatewayDeal
    { operation := .lockDeal q.id administrator 4 } q administrator 4 hq hstatus rfl hok).mpr
    (.inr (reassessedDecision_clear.mp hclear))

/-- The threshold for high-value deals falls below the quote's net after its approval. -/
def tightenedDeal : List Request :=
  gatewayDeal ++ [{ operation := .catalog (.updateGovernance { highValueNetTotal := some 100 }) }]

/-- The lock goes through although today's rules ask for an approval nobody gave. -/
theorem lock_without_approval :
    let w := serveAll plainOptions startWorld tightenedDeal
    succeeds plainOptions w { operation := .lockDeal 100 administrator 4 } = true ∧
      ∃ q ∈ w.store.quotes, q.id = 100 ∧ q.quote.status = .approved ∧ q.approvals = [] ∧
        reassessedDecision plainOptions w.store q = some .approvalRequired ∧
        ¬ApprovedAsRequired plainOptions w.store q := by
  decide +kernel

end DealFlow360
