import DealFlow360.ClosedQuote
import DealFlow360.LifecycleInvariant

/-!
# What a lock leaves open

The lock guards the lines of a quote against every edit but an accepted
negotiation. The figures are re-derived on every save from the catalog and the
rules of the day, so they stay as they are only while what those make of the
locked lines stays as it was at the lock.

`Terms` is what the figures of a quote are made of besides its lines: the
products, policies, breaks, tier, tax and settings of the day. An assessment's
figures are a function of lines and terms (`figures_applyAssessment`), and a
locked quote is stored anew only by a request that rewrites it
(`QuoteStep.rewrites`).

- `commercial_lock`: in every run, a locked quote keeps its lines and its
  totals through every later request that leaves its terms alone and accepts no
  other quantity for it;
- `lock_reopened`: the two ways out, an accepted quantity and a tax rate raised
  between lock and planning.
-/

namespace DealFlow360

open Program

/-! ## What the figures depend on -/

/-- The stored totals of a quote. -/
structure Figures where
  listTotal : Num
  discountTotal : Num
  netTotal : Num
  taxTotal : Num
  deriving DecidableEq

def QuoteAggregate.figures (q : QuoteAggregate) : Figures where
  listTotal := q.quote.listTotal
  discountTotal := q.quote.discountTotal
  netTotal := q.quote.netTotal
  taxTotal := q.quote.taxTotal

/-- What the catalog and the rules make of a line: the price applied to it, if its product and its
customer are there, and the tax rate it is charged. -/
structure LineTerms where
  price : Option Num
  taxRate : Num
  deriving DecidableEq

def lineTerms (options : Options) (store : Store) (tier : Option CustomerTier) (line : QuoteLine) :
    LineTerms where
  price := tier.bind fun tier => (store.getProduct line.productId).map
    (appliedPrice store.quantityBreaks (persistCustomerTier tier.text) line)
  taxRate := Tax.lineRate store.products (options.governanceOf store) line

/-- Two stores make the same of every line of a quote. -/
def SameTerms (options : Options) (store store' : Store) (q : QuoteAggregate) : Prop :=
  ∀ line ∈ q.lines, lineTerms options store' (store'.tierOf q) line
    = lineTerms options store (store.tierOf q) line

instance (options : Options) (store store' : Store) (q : QuoteAggregate) :
    Decidable (SameTerms options store store' q) :=
  inferInstanceAs (Decidable (∀ line ∈ q.lines, _ = _))

/-- The figures of lines under given terms. -/
def figuresOf (lines : List QuoteLine) (terms : QuoteLine → LineTerms) : Figures :=
  let price (line : QuoteLine) : Num := (terms line).price.getD 0
  let totals := totalsOf ((lines.map fun line => listAmount (price line) line).sum)
    ((lines.map fun line => netAmount (price line) line).sum)
  { listTotal := totals.listTotal
    discountTotal := totals.discountTotal
    netTotal := totals.netTotal
    taxTotal :=
      round ((lines.map fun line => Tax.lineNetAmount line * (terms line).taxRate).sum) 2 }

theorem figuresOf_congr {lines : List QuoteLine} {terms terms' : QuoteLine → LineTerms}
    (h : ∀ line ∈ lines, terms line = terms' line) : figuresOf lines terms = figuresOf lines terms' := by
  have hmap {α : Type} (f : LineTerms → QuoteLine → α) :
      lines.map (fun line => f (terms line) line) = lines.map fun line => f (terms' line) line :=
    List.map_congr_left fun line hline => by rw [h line hline]
  unfold figuresOf
  dsimp only
  rw [hmap fun terms line => listAmount (terms.price.getD 0) line,
    hmap fun terms line => netAmount (terms.price.getD 0) line,
    hmap fun terms line => Tax.lineNetAmount line * terms.taxRate]

/-- An assessment's figures are those of the lines under the terms of the day. -/
theorem figures_applyAssessment {options : Options} {store : Store} {a : QuoteAggregate}
    {tier : CustomerTier} {pairs : List (QuoteLine × Product)}
    (hpairs : pairProducts store a.lines = .ok pairs) :
    (applyAssessment options store a (assessQuote (assessmentInput options store tier pairs))).figures
      = figuresOf a.lines (lineTerms options store (some tier)) := by
  have hmap (f : Num → QuoteLine → Num) :
      (pairs.map fun entry => f (appliedPrice store.quantityBreaks
          (persistCustomerTier tier.text) entry.1 entry.2) entry.1)
        = a.lines.map fun line => f ((lineTerms options store (some tier) line).price.getD 0) line := by
    rw [← pairProducts_fst hpairs, List.map_map]
    refine List.map_congr_left fun entry hentry => ?_
    simp [lineTerms, pairProducts_snd hpairs entry hentry]
  have htotals := totals_assessQuote (assessmentInput options store tier pairs)
  simp only [assessmentInput, AssessmentInput.tier, hmap listAmount, hmap netAmount] at htotals
  unfold figuresOf
  dsimp only
  rw [← htotals]
  simp only [QuoteAggregate.figures, applyAssessment, Tax.computeTaxTotal_eq, lineTerms,
    assessmentInput]

/-! ## One request -/

/-- Whether a request rewrites a quote: it is served and edits the quote, other than by repeating its
lock, or it assesses the quote. -/
def Rewrites (options : Options) (w : World) (request : Request) (id : Id) : Prop :=
  match request.operation with
  | .edit (.confirm ..) => False
  | .edit op => succeeds options w request = true ∧
      ∃ a, (op.mutation (request.env options)).load w = .ok a w ∧ a.id = id
  | .assess quoteId => quoteId = id
  | _ => False

theorem lineTerms_of_edit {w w' : World} (h : EditFrame w w') (options : Options)
    (tier : Option CustomerTier) : lineTerms options w'.store tier = lineTerms options w.store tier := by
  rw [h.store]
  rfl

variable {options : Options} {w : World} {request : Request} {q q' : QuoteAggregate}

/-- A quote that is stored anew has the figures of its lines under the terms of the day. -/
theorem QuoteStep.figures (h : QuoteStep options w request q q') :
    q' = q ∨ q'.figures = figuresOf q'.lines (lineTerms options w.store (w.store.tierOf q')) := by
  have hidentity := h.identity
  cases h with
  | untouched => exact .inl rfl
  | assessed hop hq hid hpairs =>
      right
      rw [tierOf_of_identity hidentity, hq.tierOf]
      exact figures_applyAssessment hpairs
  | edited hop hload hq hedit hframe hchange hpairs hnext =>
      right
      rw [tierOf_of_identity hidentity, hq.tierOf, ← hchange.customer, ← lineTerms_of_edit hframe]
      exact figures_applyAssessment hpairs

/-- A locked quote is stored anew only by a request that rewrites it. -/
theorem QuoteStep.rewrites (h : QuoteStep options w request q q')
    (hlocked : q.quote.financeLockedAt.isSome = true) :
    q' = q ∨ Rewrites options w request q.id := by
  cases h with
  | untouched => exact .inl rfl
  | assessed hop hq hid hpairs =>
      right
      unfold Rewrites
      rw [hop]
      exact hid.symm
  | @edited op a b w₁ pairs hop hload hq hedit hframe hchange hpairs hnext =>
      right
      have hid : a.id = q.id := congrArg Quote.id hq.quote
      have hok := succeeds_of_saved hop hload hq hedit hpairs
      unfold Rewrites
      rw [hop]
      cases op with
      | confirm quoteId actor version =>
          have hunlocked := hchange.unlocked_of_confirm
          rw [hq.quote] at hunlocked
          rw [hunlocked] at hlocked
          cases hlocked
      | _ => exact ⟨hok, a, hload, hid⟩

/-- A request that leaves the terms of a locked quote alone: it accepts no other quantity for it, and if
it rewrites the quote, the catalog and the rules still make of the lines what they made at the lock. -/
structure KeepsTerms (options : Options) (lockedIn : Store) (q : QuoteAggregate) (w : World)
    (request : Request) : Prop where
  quantities : ∀ q' ∈ w.store.quotes, q'.id = q.id →
    ∀ op, request.operation = .edit op → ¬AcceptsOtherQuantity w.store q' op
  terms : Rewrites options w request q.id → SameTerms options lockedIn w.store q

/-! ## Every run after the lock -/

/-- The world still holds the quote as it was locked. -/
structure HoldsLocked (q : QuoteAggregate) (w : World) (q' : QuoteAggregate) : Prop where
  mem : q' ∈ w.store.quotes
  identity : q'.identity = q.identity
  locked : q'.quote.financeLockedAt.isSome = true
  lines : q'.lines = q.lines
  figures : q'.figures = q.figures

/-- The quote was locked with the figures of its lines under the terms of `lockedIn`. -/
def LockedIn (options : Options) (lockedIn : Store) (q : QuoteAggregate) : Prop :=
  q.figures = figuresOf q.lines (lineTerms options lockedIn (lockedIn.tierOf q))

theorem HoldsLocked.serve {lockedIn : Store} (hw : w.Indexed)
    (hlife : ∀ q ∈ w.store.quotes, LockedWhileWon q) (hterms : LockedIn options lockedIn q)
    (h : HoldsLocked q w q') (hkeeps : KeepsTerms options lockedIn q w request) :
    ∃ q'', HoldsLocked q (serve options w request) q'' := by
  obtain ⟨q'', hq'', hstep⟩ : ∃ q'' ∈ (DealFlow360.serve options w request).store.quotes,
      QuoteStep options w request q' q'' := by
    rcases serve_quote hw h.mem with hserved | ⟨hunlocked, -⟩
    · exact hserved
    · simp [isCommerciallyLocked, h.locked] at hunlocked
  have hid : q'.id = q.id := congrArg (·.1) h.identity
  have hclosed := canMutateCommercials_of_isWon ((hlife q' h.mem).mp h.locked)
  have hlines : q''.lines = q'.lines := hstep.closed_lines hclosed (hkeeps.quantities q' h.mem hid)
  have hidentity := hstep.identity.trans h.identity
  refine ⟨q'', hq'', hidentity, ?_, hlines.trans h.lines, ?_⟩
  · rw [hstep.keeps_lock h.locked]
    exact h.locked
  · rcases hstep.rewrites h.locked with rfl | hrewrites
    · exact h.figures
    · rcases hstep.figures with rfl | hfigures
      · exact h.figures
      · have hsame := hkeeps.terms (hid ▸ hrewrites)
        rw [hfigures, hlines, h.lines, tierOf_of_identity hidentity, hterms]
        exact figuresOf_congr hsame

/-- In every run, a locked quote keeps its lines and its totals through every later request that
leaves its terms alone. -/
theorem commercial_lock (options : Options) (w₀ : World) (hfresh : w₀.Fresh)
    (requests : List Request) (lock : Request) (rest : List Request) (q q₁ : QuoteAggregate) :
    let w := serveAll options w₀ requests
    let locked := serve options w lock
    q ∈ w.store.quotes → q.quote.financeLockedAt = none →
      q₁ ∈ locked.store.quotes → q₁.id = q.id → q₁.quote.financeLockedAt.isSome = true →
      Machine.Meets (serve options) (KeepsTerms options w.store q₁) locked rest →
      ∃ q' ∈ (serveAll options locked rest).store.quotes, q'.id = q₁.id ∧ q'.lines = q₁.lines ∧
        q'.quote.listTotal = q₁.quote.listTotal ∧ q'.quote.discountTotal = q₁.quote.discountTotal ∧
        q'.quote.netTotal = q₁.quote.netTotal ∧ q'.quote.taxTotal = q₁.quote.taxTotal := by
  intro w locked hq hunlocked hq₁ hid hlockedAt hmeets
  have hw : w.Indexed := hfresh.indexed.serveAll options requests
  have hlife : ∀ q ∈ w.store.quotes, LockedWhileWon q :=
    lockedWhileWon_invariant.of_fresh hfresh requests
  have hterms : LockedIn options w.store q₁ := by
    rcases (step_of_same_id hw hq hq₁ hid).figures with rfl | hfigures
    · rw [hunlocked] at hlockedAt
      cases hlockedAt
    · exact hfigures
  have hstep (w' : World) (request : Request)
      (h : w'.Indexed ∧ (∀ q ∈ w'.store.quotes, LockedWhileWon q) ∧ ∃ q', HoldsLocked q₁ w' q')
      (hkeeps : KeepsTerms options w.store q₁ w' request) :
      (serve options w' request).Indexed ∧
        (∀ q ∈ (serve options w' request).store.quotes, LockedWhileWon q) ∧
        ∃ q', HoldsLocked q₁ (serve options w' request) q' := by
    obtain ⟨hw', hlife', q', hholds⟩ := h
    exact ⟨hw'.serve options request, lockedWhileWon_invariant.serve hlife',
      hholds.serve hw' hlife' hterms hkeeps⟩
  have hstart : HoldsLocked q₁ locked q₁ := ⟨hq₁, rfl, hlockedAt, rfl, rfl⟩
  obtain ⟨-, -, q', hholds⟩ := Machine.invariant_of_meets hstep
    ⟨hw.serve options lock, lockedWhileWon_invariant.serve hlife, q₁, hstart⟩ hmeets
  have hfigures := hholds.figures
  simp only [QuoteAggregate.figures, Figures.mk.injEq] at hfigures
  exact ⟨q', hholds.mem, congrArg (·.1) hholds.identity, hholds.lines, hfigures⟩

/-- Two gateways, locked, then planned while catalog and rules stay as they are. -/
theorem commercial_lock_planned :
    let w := serveAll plainOptions startWorld
      (approvedDeal [{ productId := 11, quantity := 2, discountPercent := 0 }])
    let locked := serve plainOptions w { operation := .lockDeal 100 administrator 4 }
    let planned := serve plainOptions locked { operation := .edit (.planFulfillment 100 [] 5) }
    ∃ q₁ ∈ locked.store.quotes, q₁.quote.financeLockedAt.isSome = true ∧
      ∃ q' ∈ planned.store.quotes, q'.id = q₁.id ∧ q'.lines = q₁.lines ∧
        q'.quote.netTotal = q₁.quote.netTotal := by
  intro w locked planned
  have hlocked : ∃ q ∈ w.store.quotes, ∃ q₁ ∈ locked.store.quotes,
      q.quote.financeLockedAt = none ∧ q₁.id = q.id ∧ q₁.quote.financeLockedAt.isSome = true ∧
        SameTerms plainOptions w.store locked.store q₁ := by decide +kernel
  obtain ⟨q, hq, q₁, hq₁, hunlocked, hid, hlockedAt, hsame⟩ := hlocked
  obtain ⟨q', hq', hid', hlines, -, -, hnet, -⟩ := commercial_lock plainOptions startWorld
    startWorld_fresh (approvedDeal [{ productId := 11, quantity := 2, discountPercent := 0 }])
    { operation := .lockDeal 100 administrator 4 }
    [{ operation := .edit (.planFulfillment 100 [] 5) }] q q₁ hq hunlocked hq₁ hid hlockedAt
    ⟨{ quantities := fun _ _ _ op hop => by
         obtain rfl := Operation.edit.inj hop
         exact not_false
       terms := fun _ => hsame }, trivial⟩
  exact ⟨q₁, hq₁, hlockedAt, q', hq', hid', hlines, hnet⟩

/-- Two gateways are locked while a salesperson's request for five is open. -/
def contestedDeal : List Request :=
  [{ operation := .createQuote 1 none [{ productId := 11, quantity := 2, discountPercent := 0 }]
       administrator },
   { operation := .edit (.createNegotiationRequest 100
       { note := "five after all", actorRole := some "salesperson"
         requestedLines := [{ lineId := some 102, quantity := some 5 }] } none) },
   { operation := .edit (.finalizeQuotation 100 administrator 2) },
   { operation := .edit (.submit 100 administrator) },
   { operation := .lockDeal 100 administrator 4 }]

/-- The request is accepted after the lock, and the locked quote has five gateways and another total;
and a tax rate raised after the lock changes the locked tax as soon as the quote is planned. -/
theorem lock_reopened :
    (let locked := serveAll plainOptions startWorld contestedDeal
     let reopened := serve plainOptions locked
       { operation := .edit (.respondToNegotiation 100 103 .accepted "" 5 administrator) }
     ∃ q ∈ locked.store.quotes, ∃ q' ∈ reopened.store.quotes, q'.id = q.id ∧
       q.quote.financeLockedAt.isSome = true ∧ q'.quote.financeLockedAt.isSome = true ∧
       q.lines.map (·.quantity) = [2] ∧ q'.lines.map (·.quantity) = [5] ∧
       q'.lines ≠ q.lines ∧ q'.quote.netTotal ≠ q.quote.netTotal) ∧
    (let locked := serveAll plainOptions startWorld
       (lockedDeal [{ productId := 11, quantity := 2, discountPercent := 0 }])
     let taxed := serveAll plainOptions locked
       [{ operation := .catalog (.updateGovernance { taxRatePercent := some 18 }) },
        { operation := .edit (.planFulfillment 100 [] 5) }]
     ∃ q ∈ locked.store.quotes, ∃ q' ∈ taxed.store.quotes, q'.id = q.id ∧
       q.quote.financeLockedAt.isSome = true ∧ q'.quote.taxTotal ≠ q.quote.taxTotal) := by
  decide +kernel

end DealFlow360
