import DealFlow360.QuoteStep

/-!
# The lifecycle of a quote

A quote carries a finance lock exactly while it counts as won. No request takes
the lock away, deletes a locked quote or moves it back, and whatever a request
makes of a status is a path of the transition table.

The three parts of the invariant are kept by `Change`, case by case: the lock
stays as it is (`Change.keeps_lock`), only a lock makes an open quote a won one
(`Change.isWon`), and statuses move along the table. `locked_quote_stays` is
what one request leaves of a locked quote, whatever it is and whether it
throws; `lifecycle_invariant` is the run, from a store without quotes. Nothing
is assumed of the requests.
-/

namespace DealFlow360

section Change

variable {env : Env} {w w' : World} {a b : QuoteAggregate} {op : QuoteEdit}

theorem Change.moves (h : Change env w w' a b op) : Moves a.quote.status b.quote.status := by
  cases h with
  | commercial hop hopen hunlocked hlines hbody =>
      have hstatus := eq_of_body (fun c => c.quote.status) hbody (fun _ => rfl)
      rw [hstatus]
      exact .refl
  | proposed active hop hopen hlines hbody =>
      have hstatus := eq_of_body (fun c => c.quote.status) hbody (fun _ => rfl)
      rw [hstatus]
      show Moves a.quote.status .customerNegotiation
      rcases hopen with hopen | hopen
      · rw [hopen]
        exact .single (by decide)
      · rw [hopen]
  | responded active hversion hlines hbody =>
      have hstatus := eq_of_body (fun c => c.quote.status) hbody (fun _ => rfl)
      rw [hstatus]
      exact .refl
  | moved active frozenAt frozenBy hop hsource hmove htarget hbody =>
      have hstatus := eq_of_body (fun c => c.quote.status) hbody (fun _ => rfl)
      rw [hstatus]
      exact .single hmove
  | submitted hfinalized hpairs hdecision happrovals hbody =>
      have hstatus := eq_of_body (fun c => c.quote.status) hbody (fun _ => rfl)
      rw [hstatus, hfinalized]
      refine .single ?_
      show Transition .finalized (submittedStatus _)
      unfold submittedStatus
      split <;> decide
  | decided hwaiting hcall happrovals htarget hbody =>
      have hstatus := eq_of_body (fun c => c.quote.status) hbody (fun _ => rfl)
      rw [hstatus, hwaiting]
      show Moves .approvalRequired (_ : QuoteStatus)
      subst htarget
      unfold setStatus bumpVersion
      dsimp only
      split
      · exact .single (by decide)
      · split
        · exact .single (by decide)
        · exact .refl
  | answered decision decidedAt comment decidedVersion active hop hsource hbody =>
      have hstatus := eq_of_body (fun c => c.quote.status) hbody (fun _ => rfl)
      rw [hstatus]
      exact .refl
  | planned hopen hplanned hstock hconsumed hbody =>
      have hstatus := eq_of_body (fun c => c.quote.status) hbody (fun _ => rfl)
      rw [hstatus]
      show Moves a.quote.status (if a.quote.status = .confirmed then .fulfillment else a.quote.status)
      split
      · rename_i hconfirmed
        rw [hconfirmed]
        exact .single (by decide)
      · exact .refl
  | billed hopen hbody =>
      have hstatus := eq_of_body (fun c => c.quote.status) hbody (fun _ => rfl)
      rw [hstatus]
      show Moves a.quote.status .billing
      revert hopen
      cases a.quote.status with
      | confirmed => exact fun _ => .single (by decide)
      | fulfillment => exact fun _ => .single (by decide)
      | billing => exact fun _ => .refl
      | _ => exact fun hopen => absurd hopen (by decide)
  | cancelled hbody =>
      have hstatus := eq_of_body (fun c => c.quote.status) hbody (fun _ => rfl)
      rw [hstatus]
      exact .refl
  | locked saleOrder happroved hunlocked hall hpairs hdecision hconsumed hmoves hplanned hbody =>
      have hstatus := eq_of_body (fun c => c.quote.status) hbody (fun _ => rfl)
      rw [hstatus, happroved]
      exact .head (by decide) hmoves
  | completed hwon hbody =>
      have hstatus := eq_of_body (fun c => c.quote.status) hbody (fun _ => rfl)
      rw [hstatus]
      show Moves a.quote.status .completed
      revert hwon
      cases a.quote.status with
      | confirmed => exact fun _ => .single (by decide)
      | fulfillment => exact fun _ => .single (by decide)
      | billing => exact fun _ => .single (by decide)
      | completed => exact fun _ => .refl
      | _ => exact fun hwon => absurd hwon (by decide)

/-- Once set, the lock stays as it is. -/
theorem Change.keeps_lock (h : Change env w w' a b op) (hlocked : a.quote.financeLockedAt.isSome) :
    b.quote.financeLockedAt = a.quote.financeLockedAt := by
  cases h with
  | locked saleOrder happroved hunlocked hall hpairs hdecision hconsumed hmoves hplanned hbody =>
      rw [hunlocked] at hlocked
      cases hlocked
  | _ =>
      have hbody := ‹b.body = _›
      have hlock := eq_of_body (fun c => c.quote.financeLockedAt) hbody (fun _ => rfl)
      exact hlock

/-- Only the lock makes an open quote a won one. -/
theorem Change.isWon (h : Change env w w' a b op) :
    isWon b.quote.status = isWon a.quote.status ∧
        b.quote.financeLockedAt = a.quote.financeLockedAt ∨
      isWon b.quote.status = true ∧ b.quote.financeLockedAt.isSome = true := by
  have hsame {c : QuoteAggregate} (hbody : b.body = c.body)
      (hwon : DealFlow360.isWon c.quote.status = DealFlow360.isWon a.quote.status)
      (hlock : c.quote.financeLockedAt = a.quote.financeLockedAt) :
      DealFlow360.isWon b.quote.status = DealFlow360.isWon a.quote.status ∧
        b.quote.financeLockedAt = a.quote.financeLockedAt := by
    rw [← hwon, ← hlock]
    exact ⟨eq_of_body (fun c => DealFlow360.isWon c.quote.status) hbody (fun _ => rfl),
      eq_of_body (fun c => c.quote.financeLockedAt) hbody (fun _ => rfl)⟩
  cases h with
  | commercial hop hopen hunlocked hlines hbody => exact .inl (hsame hbody rfl rfl)
  | proposed active hop hopen hlines hbody =>
      refine .inl (hsame hbody ?_ rfl)
      rcases hopen with hopen | hopen <;> rw [hopen] <;> rfl
  | responded active hversion hlines hbody => exact .inl (hsame hbody rfl rfl)
  | @moved op target active frozenAt frozenBy hop hsource hmove htarget hbody =>
      refine .inl (hsame hbody ?_ rfl)
      rw [hsource]
      show DealFlow360.isWon target = false
      revert htarget
      cases target <;> decide
  | submitted hfinalized hpairs hdecision happrovals hbody =>
      refine .inl (hsame hbody ?_ rfl)
      rw [hfinalized]
      show DealFlow360.isWon (submittedStatus _) = false
      unfold submittedStatus
      split <;> rfl
  | decided hwaiting hcall happrovals htarget hbody =>
      refine .inl (hsame hbody ?_ rfl)
      rw [hwaiting, htarget]
      show DealFlow360.isWon (if _ then _ else if _ then _ else _) = false
      split
      · rfl
      · split <;> rfl
  | answered decision decidedAt comment decidedVersion active hop hsource hbody =>
      exact .inl (hsame hbody rfl rfl)
  | planned hopen hplanned hstock hconsumed hbody =>
      refine .inl (hsame hbody ?_ rfl)
      show DealFlow360.isWon (if a.quote.status = .confirmed then .fulfillment else a.quote.status)
        = _
      split
      · rename_i hconfirmed
        rw [hconfirmed]
        rfl
      · rfl
  | billed hopen hbody =>
      refine .inl (hsame hbody ?_ rfl)
      show true = _
      revert hopen
      cases a.quote.status <;> decide
  | cancelled hbody => exact .inl (hsame hbody rfl rfl)
  | locked saleOrder happroved hunlocked hall hpairs hdecision hconsumed hmoves hplanned hbody =>
      have hstatus := eq_of_body (fun c => c.quote.status) hbody (fun _ => rfl)
      have hlock := eq_of_body (fun c => c.quote.financeLockedAt) hbody (fun _ => rfl)
      rw [hstatus, hlock]
      exact .inr ⟨isWon_iff_lockStage.mpr (lockStage_le_of_moves hmoves), rfl⟩
  | completed hwon hbody =>
      refine .inl (hsame hbody ?_ rfl)
      rw [hwon]
      rfl

end Change

/-- Locked exactly while won. -/
def LockedWhileWon (q : QuoteAggregate) : Prop :=
  q.quote.financeLockedAt.isSome = true ↔ isWon q.quote.status = true

theorem LockedWhileWon.of_open {q : QuoteAggregate} (hlock : q.quote.financeLockedAt = none)
    (hstatus : isWon q.quote.status = false) : LockedWhileWon q := by
  unfold LockedWhileWon
  rw [hlock, hstatus]
  decide

theorem LockedWhileWon.change {env : Env} {w w' : World} {a b : QuoteAggregate} {op : QuoteEdit}
    (hchange : Change env w w' a b op) (ha : LockedWhileWon a) : LockedWhileWon b := by
  unfold LockedWhileWon at ha ⊢
  rcases hchange.isWon with ⟨hwon, hlock⟩ | ⟨hwon, hlock⟩
  · rw [hwon, hlock]
    exact ha
  · rw [hwon, hlock]

theorem lockedWhileWon_invariant : QuoteInvariant fun _ => LockedWhileWon where
  core h ha := by
    have hquote := eq_of_core (fun c => (c.quote.financeLockedAt, c.quote.status)) h (fun _ => rfl)
    obtain ⟨hlock, hstatus⟩ := Prod.mk.inj hquote
    unfold LockedWhileWon
    rwa [← hlock, ← hstatus]
  mono _ hq := hq
  draft hdraft := by
    refine .of_open hdraft.unlocked ?_
    rw [hdraft.status]
    rfl
  change _ hchange ha := ha.change hchange

/-! ## One request -/

variable {options : Options} {w : World} {request : Request} {q q' : QuoteAggregate}

theorem QuoteStep.moves (h : QuoteStep options w request q q') :
    Moves q.quote.status q'.quote.status := by
  cases h with
  | untouched => exact .refl
  | edited hop hload hq hedit hframe hchange hpairs hnext =>
      rw [← hq.quote]
      exact hchange.moves
  | assessed hop hq hid hpairs =>
      rw [← hq.quote]
      exact .refl

theorem QuoteStep.keeps_lock (h : QuoteStep options w request q q')
    (hlocked : q.quote.financeLockedAt.isSome) :
    q'.quote.financeLockedAt = q.quote.financeLockedAt := by
  cases h with
  | untouched => rfl
  | edited hop hload hq hedit hframe hchange hpairs hnext =>
      rw [← hq.quote] at hlocked ⊢
      exact hchange.keeps_lock hlocked
  | assessed hop hq hid hpairs =>
      rw [← hq.quote]
      rfl

/-- A locked quote outlives every request, keeps its lock and never moves back. -/
theorem locked_quote_stays (hw : w.Indexed) (hq : q ∈ w.store.quotes)
    (hlocked : q.quote.financeLockedAt.isSome) :
    ∃ q' ∈ (serve options w request).store.quotes, q'.id = q.id ∧
      q'.quote.financeLockedAt = q.quote.financeLockedAt ∧
      lockStage q.quote.status ≤ lockStage q'.quote.status := by
  rcases serve_quote hw hq with ⟨q', hq', hstep⟩ | ⟨hunlocked, -⟩
  · exact ⟨q', hq', hstep.id, hstep.keeps_lock hlocked, lockStage_le_of_moves hstep.moves⟩
  · simp [isCommerciallyLocked, hlocked] at hunlocked

/-! ## Every run -/

/-- The lifecycle of every quote, over every run from a store without quotes. -/
theorem lifecycle_invariant (options : Options) (w₀ : World) (hfresh : w₀.Fresh)
    (requests : List Request) :
    let w := serveAll options w₀ requests
    (∀ q ∈ w.store.quotes,
      (q.quote.financeLockedAt.isSome = true ↔
        q.quote.status ∈ [.confirmed, .fulfillment, .billing, .completed])) ∧
    (∀ request, ∀ q ∈ w.store.quotes, q.quote.financeLockedAt.isSome = true →
      ∃ q' ∈ (serve options w request).store.quotes, q'.id = q.id ∧
        q'.quote.financeLockedAt = q.quote.financeLockedAt ∧
        lockStage q.quote.status ≤ lockStage q'.quote.status) ∧
    (∀ request, ∀ q ∈ w.store.quotes, ∀ q' ∈ (serve options w request).store.quotes,
      q'.id = q.id → Moves q.quote.status q'.quote.status) := by
  intro w
  have hw : w.Indexed := hfresh.indexed.serveAll options requests
  refine ⟨fun q hq => ?_, fun request q hq hlocked => locked_quote_stays hw hq hlocked,
    fun request q hq q' hq' hid => (step_of_same_id hw hq hq' hid).moves⟩
  have hlocked : LockedWhileWon q := lockedWhileWon_invariant.of_fresh hfresh requests q hq
  refine hlocked.trans ?_
  cases q.quote.status <;> decide

/-- Two gateways sold and locked. -/
theorem lifecycle_invariant_locked :
    let w := serveAll plainOptions startWorld
      (lockedDeal [{ productId := 11, quantity := 2, discountPercent := 0 }])
    ∃ q ∈ w.store.quotes, q.quote.status = .confirmed ∧ q.quote.financeLockedAt.isSome = true := by
  intro w
  have hlife := lifecycle_invariant plainOptions startWorld startWorld_fresh
    (lockedDeal [{ productId := 11, quantity := 2, discountPercent := 0 }])
  have hconfirmed : ∃ q ∈ w.store.quotes, q.quote.status = .confirmed := by decide +kernel
  obtain ⟨q, hq, hstatus⟩ := hconfirmed
  refine ⟨q, hq, hstatus, (hlife.1 q hq).mpr ?_⟩
  rw [hstatus]
  decide

end DealFlow360
