import DealFlow360.PriceCoherence
import DealFlow360.QuoteLines
import DealFlow360.Sessions
import Mathlib.Data.List.Induction

/-!
# What the customer accepted

An acceptance is recorded with the version of the quote it was given on.
Editing the lines of an open quote leaves the decision as it is, so an
acceptance says what was accepted only as long as every edit of an accepted
quote leaves the lines at the terms they have.

What is on record is the decision with the version it was given on. An edit
keeps the decision on record, or records one on the loaded version and leaves
the lines alone (`decided_of_edit`); a request stores the lines as they were or
under the next version (`QuoteStep.version`).

- `QuoteStep.accepted`: a request that leaves accepted quotes at their terms
  leaves the lines of an accepted quote;
- `acceptance_binds`: in every run of such requests, an accepted quote has the
  terms it had at the version of the acceptance.

The edits that restate the terms a line has already are allowed;
`accepted_terms_changed` adds a line, which is not one of them.
-/

namespace DealFlow360

open Program

/-- The commercial terms of the lines of a quote: product, quantity, price and discount. -/
def QuoteAggregate.terms (q : QuoteAggregate) : List (Id × Num × Num × Num) :=
  q.lines.map fun line => (line.productId, line.quantity, line.listPrice, line.discountPercent)

/-! ## Edits that restate the terms of a line -/

/-- The update states nothing about the line that it does not have. -/
structure LineUpdate.Restates (store : Store) (tier : CustomerTier) (input : LineUpdate)
    (line : QuoteLine) : Prop where
  productId : ∀ productId, input.productId = some productId → productId = line.productId
  quantity : input.quantity.getD line.quantity = line.quantity
  discount : input.discountPercent.getD line.discountPercent = line.discountPercent
  unitPrice : ∀ unitPrice, input.unitPrice = some unitPrice → unitPrice = line.listPrice
  /-- A quantity without a price asks the breaks for one. -/
  rulePrice : input.quantity.isSome = true → input.unitPrice = none → AtRulePrice store tier line

/-- The manager's change states nothing about the line that it does not have, and the line has the rule
price, which every such change asks for. -/
structure ManagerChange.Restates (store : Store) (tier : CustomerTier) (change : ManagerChange)
    (line : QuoteLine) : Prop where
  quantity : change.quantity.getD line.quantity = line.quantity
  discount : change.discountPercent.getD line.discountPercent = line.discountPercent
  product : ∀ product, store.getProduct (change.productId.getD line.productId) = some product →
    product.id = line.productId ∧ line.listPrice = rulePriceFor store tier product line.quantity

/-- The portal's change states no other quantity, and the line has the rule price. -/
structure PortalLineChange.Restates (store : Store) (tier : CustomerTier) (change : PortalLineChange)
    (line : QuoteLine) : Prop where
  quantity : change.quantity.getD line.quantity = line.quantity
  rulePrice : AtRulePrice store tier line

/-- A requested change states neither another quantity nor another discount of its line. -/
structure NegotiationRequestedLine.Restates (lines : List QuoteLine)
    (item : NegotiationRequestedLine) : Prop where
  quantity : ¬AsksOtherQuantity lines item
  discount : Applies lines item → ∀ line, requestedOf lines item = some line →
    item.discountPercent.getD line.discountPercent = line.discountPercent

/-- An edit of the quote `a` that leaves its lines at the terms they have. -/
def RestatesTerms (store : Store) (a : QuoteAggregate) : QuoteEdit → Prop
  | .addLine .. => False
  | .applyRecommendation .. => False
  | .updateLine _ lineId input _ _ => ∀ line, findLine a.lines lineId = some line →
      input.Restates store a.customer.tier line
  | .removeLine _ lineId _ _ => ∀ line ∈ a.lines, line.id ≠ lineId
  | .reviseAsManager _ changes _ _ => ∀ change ∈ changes, ∀ line,
      findLine a.lines change.lineId = some line → change.Restates store a.customer.tier line
  | .createNegotiationRequest _ input actor =>
      isCustomerRole (input.actorRole.or (actor.bind (·.role))) = true →
        ∀ item ∈ input.requestedLines, ¬AsksOtherQuantity a.lines item
  | .createPortalNegotiation _ input =>
      ∀ item ∈ input.requestedLines, ¬AsksOtherQuantity a.lines item
  | .applyPortalChange _ _ changes => ∀ change ∈ changes, ∀ line,
      findLine a.lines change.lineId = some line → change.Restates store a.customer.tier line
  | .respondToNegotiation quoteId negotiationId .accepted _ _ _ =>
      ∀ request, findNegotiation store quoteId negotiationId = .ok request →
        ∀ item ∈ request.requestedLines, item.Restates a.lines
  | _ => True

section Restating

variable {store : Store} {tier : CustomerTier} {lines lines' : List QuoteLine} {line : QuoteLine}

theorem editLine_same {lineId : Id} {f : QuoteLine → QuoteLine}
    (h : ∀ line, findLine lines lineId = some line → f line = line) : editLine lineId f lines = lines :=
  Table.modifyFirst_eq_self h

theorem LineUpdate.Restates.restate {input : LineUpdate} (h : input.Restates store tier line) :
    input.restate line = line := by
  unfold LineUpdate.restate
  rw [h.quantity, h.discount]

theorem LineUpdate.Restates.reprice {input : LineUpdate} {quoteId : Id} {rulePrice : Num}
    {line' : QuoteLine} {w w' : World} (h : input.Restates store tier line)
    (hrule : input.quantity.isSome = true → input.unitPrice = none → rulePrice = line.listPrice)
    (hreprice : input.reprice quoteId rulePrice line w = .ok line' w') : line' = line := by
  have hproductId : input.productId.filter (fun productId => productId ≠ line.productId) = none := by
    rw [Option.filter_eq_none_iff]
    intro productId hstated hother
    exact of_decide_eq_true hother (h.productId productId hstated)
  unfold LineUpdate.reprice at hreprice
  simp only [hproductId] at hreprice
  cases hunitPrice : input.unitPrice with
  | some unitPrice =>
      simp only [hunitPrice, pure_eq_ok] at hreprice
      obtain ⟨rfl, -⟩ := hreprice
      rw [h.unitPrice unitPrice hunitPrice]
  | none =>
      simp only [hunitPrice, pure_eq_ok] at hreprice
      obtain ⟨rfl, -⟩ := hreprice
      split
      · rename_i hquantity
        rw [hrule hquantity hunitPrice]
      · rfl

theorem ManagerChange.Restates.apply {change : ManagerChange} (h : change.Restates store tier line) :
    change.apply store tier line = line := by
  unfold ManagerChange.apply
  dsimp only
  rw [h.quantity, h.discount]
  cases hproduct : store.getProduct (change.productId.getD line.productId) with
  | none => rfl
  | some product =>
      obtain ⟨hid, hprice⟩ := h.product product hproduct
      have hnamed : change.productId.getD line.productId = line.productId :=
        (getProduct_id hproduct).symm.trans hid
      have hsame : change.productId.any (fun productId => productId ≠ line.productId) = false := by
        cases hproductId : change.productId with
        | none => rfl
        | some productId =>
            rw [hproductId] at hnamed
            simpa using hnamed
      simp only [hsame, Bool.false_eq_true, if_false]
      rw [← hprice]

theorem PortalLineChange.Restates.apply {change : PortalLineChange}
    (h : change.Restates store tier line) : change.apply store tier line = line := by
  unfold PortalLineChange.apply
  dsimp only
  rw [h.quantity]
  cases hproduct : store.getProduct line.productId with
  | none => rfl
  | some product =>
      dsimp only
      rw [← h.rulePrice product hproduct]

theorem reviseLine_same {changes : List ManagerChange} {revised : List QuoteLine × List Num}
    (h : ∀ change ∈ changes, ∀ line, findLine lines change.lineId = some line →
      change.Restates store tier line)
    (hrevised : changes.foldlM (reviseLine store tier) (lines, []) = .ok revised) :
    revised.1 = lines := by
  refine except_foldlM_invariant (fun revised => revised.1 = lines) changes ?_ (lines, []) revised rfl
    hrevised
  intro change hchange before after hbefore hstep
  unfold reviseLine at hstep
  split at hstep
  · cases hstep
  · obtain rfl := Except.ok.inj hstep
    rw [hbefore]
    exact editLine_same fun line hline => (h change hchange line hline).apply

theorem changeLine_same {changes : List PortalLineChange}
    (h : ∀ change ∈ changes, ∀ line, findLine lines change.lineId = some line →
      change.Restates store tier line)
    (hchanged : changes.foldlM (changeLine store tier) lines = .ok lines') : lines' = lines := by
  refine except_foldlM_invariant (fun after => after = lines) changes ?_ lines lines' rfl hchanged
  intro change hchange before after hbefore hstep
  unfold changeLine at hstep
  split at hstep
  · cases hstep
  · obtain rfl := Except.ok.inj hstep
    rw [hbefore]
    exact editLine_same fun line hline => (h change hchange line hline).apply

theorem requestedQuantities_same {input : NegotiationInput} {role : Option String}
    (h : isCustomerRole role = true → ∀ item ∈ input.requestedLines, ¬AsksOtherQuantity lines item) :
    requestedQuantities lines input role = lines := by
  unfold requestedQuantities
  split
  · rename_i hrole
    refine List.foldlRecOn (motive := fun (after : List QuoteLine) => after = lines)
      input.requestedLines setRequestedQuantity rfl fun after hafter item hitem => ?_
    rw [hafter]
    exact setRequestedQuantity_same (h hrole item hitem)
  · rfl

theorem acceptRequested_same {env : Env} {a : QuoteAggregate} {actor : Actor}
    {item : NegotiationRequestedLine} {w w' : World} (h : item.Restates lines)
    (haccept : acceptRequested env a actor lines item w = .ok lines' w') : lines' = lines := by
  unfold acceptRequested at haccept
  dsimp only at haccept
  rw [setRequestedQuantity_same h.quantity] at haccept
  split at haccept
  · exact (pure_eq_ok.mp haccept).1.symm
  · rename_i happlies
    rw [not_or, Bool.not_eq_true, Option.isNone_eq_false_iff] at happlies
    cases hlineId : item.lineId with
    | none =>
        simp only [hlineId] at haccept
        exact (pure_eq_ok.mp haccept).1.symm
    | some lineId =>
        cases hdiscount : item.discountPercent with
        | none =>
            simp only [hlineId, hdiscount] at haccept
            exact (pure_eq_ok.mp haccept).1.symm
        | some discountPercent =>
            simp only [hlineId, hdiscount, bind_eq_ok, pure_eq_ok] at haccept
            obtain ⟨_, _, -, rfl, -⟩ := haccept
            refine editLine_same fun line hline => ?_
            have hrequested : requestedOf lines item = some line := by
              rw [requestedOf, hlineId]
              exact hline
            have hsame := h.discount happlies line hrequested
            rw [hdiscount, Option.getD_some] at hsame
            rw [hsame]

/-- An edit that restates the terms leaves the lines alone. -/
theorem Relines.same {env : Env} {w w' : World} {a : QuoteAggregate} {op : QuoteEdit}
    (h : Relines env w w' a op lines) (hrestates : RestatesTerms w.store a op)
    (hknown : ∀ line ∈ a.lines, (w.store.getProduct line.productId).isSome = true) :
    lines = a.lines := by
  cases h with
  | addLine => exact hrestates.elim
  | applyRecommendation => exact hrestates.elim
  | @updateLine quoteId lineId input version actor found line rulePrice w₁ hfound hrule hline =>
      have hsame := hrestates found hfound
      rw [hsame.restate] at hrule hline
      obtain ⟨product, hproduct⟩ :=
        Option.isSome_iff_exists.mp (hknown found (Table.mem_of_lookup hfound))
      have hrepriced : line = found := by
        refine hsame.reprice (fun hquantity hprice => ?_) hline
        rw [hrule product hproduct]
        exact (hsame.rulePrice hquantity hprice product hproduct).symm
      rw [hrepriced]
      refine editLine_same fun other hother => ?_
      rw [hfound] at hother
      exact Option.some.inj hother
  | removeLine =>
      refine List.filter_eq_self.mpr fun line hline => ?_
      exact decide_eq_true (hrestates line hline)
  | reviseAsManager hrevised => exact reviseLine_same hrestates hrevised
  | createNegotiationRequest => exact requestedQuantities_same hrestates
  | createPortalNegotiation => exact requestedQuantities_same fun _ => hrestates
  | applyPortalChange hlines => exact changeLine_same hrestates hlines
  | respondToNegotiation hrequest hlines =>
      refine foldlM_invariant (fun after (_ : World) => after = a.lines) _ ?_ a.lines w _ _ rfl hlines
      intro item hitem before s after s' hbefore hstep
      rw [hbefore] at hstep
      exact acceptRequested_same (hrestates _ hrequest item hitem) hstep

end Restating

/-! ## Edits that record a decision -/

section Decision

variable {env : Env} {w w' : World} {a b : QuoteAggregate} {op : QuoteEdit}

/-- A decision is recorded with the version it was given on. -/
theorem decidedVersion_of_answer (hop : op.isAnswer = true)
    (h : (op.mutation env).edit a w = .ok (some b) w') :
    b.quote.customerDecisionVersion = some a.quote.version := by
  cases op with
  | agreeToFinal quoteId version =>
      simp only [QuoteEdit.mutation, agreeToFinal, Mutation.saving, map_eq_ok, bind_eq_ok,
        pure_eq_ok, Option.some.injEq] at h
      obtain ⟨_, ⟨_, _, -, _, _, -, _, _, -, _, _, -, agreed, _, hagreed, rfl, -⟩, rfl⟩ := h
      obtain ⟨active, rfl⟩ := agreeNegotiation_ok hagreed
      rfl
  | applyPortalDecision token version action comment =>
      simp only [QuoteEdit.mutation, applyPortalDecision, bind_eq_ok] at h
      obtain ⟨_, _, -, _, _, -, h⟩ := h
      split at h
      · cases (pure_eq_ok.mp h).1
      · obtain rfl := Option.some.inj (pure_eq_ok.mp h).1
        rfl
  | _ => cases hop

/-- What the customer decided, and on which version. -/
def QuoteAggregate.decided (q : QuoteAggregate) : CustomerDecision × Option ℕ :=
  (q.quote.customerDecision, q.quote.customerDecisionVersion)

/-- An edit keeps the decision on record, or records one on the loaded version and leaves the lines
alone. -/
theorem decided_of_edit (h : (op.mutation env).edit a w = .ok (some b) w') :
    b.decided = a.decided ∨
      b.quote.customerDecisionVersion = some a.quote.version ∧ b.lines = a.lines := by
  cases change_of_edit op h with
  | answered decision decidedAt comment decidedVersion active hop hstatus hbody =>
      have hlines := eq_of_body (fun c => c.lines) hbody (fun _ => rfl)
      exact .inr ⟨decidedVersion_of_answer hop h, hlines⟩
  | _ =>
      have hbody := ‹b.body = _›
      have hdecided := eq_of_body QuoteAggregate.decided hbody (fun _ => rfl)
      exact .inl hdecided

end Decision

/-! ## One request -/

/-- The edit names the version of `a`, where it names one, and `a` is open to changes of its kind. -/
structure OpenTo (a : QuoteAggregate) (op : QuoteEdit) : Prop where
  version : ∀ version, op.expectedVersion = some version → a.quote.version = version
  status : canMutateCommercials a.quote.status = true ∧ a.quote.financeLockedAt = none ∧
      op.isCommercial = true ∨
    (a.quote.status = .draft ∨ a.quote.status = .customerNegotiation) ∧ op.isProposal = true ∨
    op.isCommercial = false ∧ op.isProposal = false

/-- An edit that an accepted quote is open to leaves its lines at the terms they have. -/
def LeavesAccepted (options : Options) (w : World) (request : Request) : Prop :=
  match request.operation with
  | .edit op => ∀ a, (op.mutation (request.env options)).load w = .ok a w →
      a.quote.customerDecision = .accepted → OpenTo a op → RestatesTerms w.store a op
  | _ => True

section Step

variable {options : Options} {w : World} {request : Request} {q q' : QuoteAggregate}

/-- A request stores a quote with its lines as they were, or under the next version. -/
theorem QuoteStep.version (h : QuoteStep options w request q q') :
    q'.quote.version = q.quote.version ∧ q'.lines = q.lines ∨
      q'.quote.version = q.quote.version + 1 := by
  cases h with
  | untouched => exact .inl ⟨rfl, rfl⟩
  | @edited op a b w₁ pairs hop hload hq hedit hframe hchange hpairs hnext =>
      right
      rw [← hq.quote]
      exact hchange.version
  | assessed hop hq hid hpairs =>
      have hversion := eq_of_core (fun c => c.quote.version) hq.core (fun _ => rfl)
      exact .inl ⟨hversion, hq.lines⟩

/-- A request keeps the decision on record, or records one on the version the quote had. -/
theorem QuoteStep.decided (h : QuoteStep options w request q q') :
    q'.decided = q.decided ∨ q'.quote.customerDecisionVersion = some q.quote.version := by
  cases h with
  | untouched => exact .inl rfl
  | @edited op a b w₁ pairs hop hload hq hedit hframe hchange hpairs hnext =>
      have hbefore := eq_of_core QuoteAggregate.decided hq.core (fun _ => rfl)
      rcases decided_of_edit hedit with hdecided | ⟨hversion, -⟩
      · exact .inl (hdecided.trans hbefore)
      · rw [hq.quote] at hversion
        exact .inr hversion
  | assessed hop hq hid hpairs =>
      have hdecided := eq_of_core QuoteAggregate.decided hq.core (fun _ => rfl)
      exact .inl hdecided

/-- A quote that is accepted after a request that leaves accepted quotes alone has the lines it had. -/
theorem QuoteStep.accepted (h : QuoteStep options w request q q')
    (hleaves : LeavesAccepted options w request)
    (hknown : ∀ line ∈ q.lines, (w.store.getProduct line.productId).isSome = true)
    (haccepted : q'.quote.customerDecision = .accepted) : q'.lines = q.lines := by
  cases h with
  | untouched => rfl
  | assessed hop hq hid hpairs => exact hq.lines
  | @edited op a b w₁ pairs hop hload hq hedit hframe hchange hpairs hnext =>
      have haccepted : b.quote.customerDecision = .accepted := haccepted
      show b.lines = q.lines
      rw [← hq.lines] at hknown ⊢
      rcases decided_of_edit hedit with hdecided | ⟨-, hlines⟩
      · have hbefore : a.quote.customerDecision = .accepted := by
          rw [← haccepted]
          exact (congrArg Prod.fst hdecided).symm
        simp only [LeavesAccepted, hop] at hleaves
        rcases hchange.lines with hsame | ⟨lines, hb, hlines, hstatus⟩
        · exact hsame
        · have hopen : OpenTo a op := by
            refine ⟨fun version hversion => version_of_edit hversion hedit, ?_⟩
            refine hstatus.imp_right (Or.imp_right ?_)
            rintro ⟨quoteId, negotiationId, note, actor, rfl⟩
            exact ⟨rfl, rfl⟩
          rw [hb]
          exact hlines.same (hleaves a hload hbefore hopen) hknown
      · exact hlines

theorem draft_undecided {env : Env} {customerId : Id} {ownerId : Option String}
    {inputs : List LineInput} {actor : Actor} {w w' : World} {b : QuoteAggregate}
    (h : draftQuote env customerId ownerId inputs actor w = .ok b w') :
    b.quote.customerDecision = .none := by
  simp only [draftQuote, bind_eq_ok, pure_eq_ok] at h
  obtain ⟨_, _, -, _, _, -, _, _, -, _, _, -, _, _, -, _, _, -, _, _, -, rfl, -⟩ := h
  rfl

/-- An accepted quote was stored before the request. -/
theorem step_of_accepted (hq' : q' ∈ (serve options w request).store.quotes)
    (haccepted : q'.quote.customerDecision = .accepted) :
    ∃ q ∈ w.store.quotes, QuoteStep options w request q q' := by
  rcases draft_of_serve hq' with
    hstep | ⟨customerId, ownerId, inputs, actor, b, w₁, pairs, hop, hdraft, -, -, rfl⟩
  · exact hstep
  · have haccepted : b.quote.customerDecision = .accepted := haccepted
    rw [draft_undecided hdraft] at haccepted
    cases haccepted

end Step

/-! ## Every run -/

/-- What every later state remembers of a quote `old`: its lines belong to its version, also where that
version was accepted. -/
structure Remembers (old : QuoteAggregate) (w : World) : Prop where
  indexed : w.Indexed
  known : ProductsKnown w
  used : old.id < w.nextUuid
  since : ∀ q ∈ w.store.quotes, q.id = old.id → old.quote.version ≤ q.quote.version ∧
    (q.quote.version = old.quote.version → q.lines = old.lines)
  accepted : ∀ q ∈ w.store.quotes, q.id = old.id → q.quote.customerDecision = .accepted →
    q.quote.customerDecisionVersion = some old.quote.version → q.lines = old.lines

section Runs

variable {options : Options} {w : World} {request : Request} {old : QuoteAggregate}

theorem Remembers.start (hindexed : w.Indexed) (hknown : ProductsKnown w)
    (hold : old ∈ w.store.quotes) : Remembers old w where
  indexed := hindexed
  known := hknown
  used := hindexed.fresh old hold
  since q hq hid := by
    obtain rfl := hindexed.eq_of_id hq hold hid
    exact ⟨Nat.le_refl _, fun _ => rfl⟩
  accepted q hq hid _ _ := by
    obtain rfl := hindexed.eq_of_id hq hold hid
    rfl

theorem Remembers.serve (h : Remembers old w) (hleaves : LeavesAccepted options w request) :
    Remembers old (serve options w request) where
  indexed := h.indexed.serve options request
  known := h.known.serve options request
  used := h.used.trans_le (serve_nextUuid options w request)
  since := by
    intro q' hq' hid
    rcases quote_of_serve hq' with ⟨q, hq, hstep⟩ | hcreated
    · obtain ⟨hle, hsame⟩ := h.since q hq (hstep.id.symm.trans hid)
      rcases hstep.version with ⟨hversion, hlines⟩ | hversion
      · rw [hversion, hlines]
        exact ⟨hle, hsame⟩
      · rw [hversion]
        refine ⟨Nat.le_succ_of_le hle, fun heq => ?_⟩
        omega
    · exact absurd (hid.symm.trans hcreated.id) (Nat.ne_of_lt h.used)
  accepted := by
    intro q' hq' hid haccepted hversion
    obtain ⟨q, hq, hstep⟩ := step_of_accepted hq' haccepted
    have hqid : q.id = old.id := hstep.id.symm.trans hid
    rw [hstep.accepted hleaves (h.known q hq) haccepted]
    rcases hstep.decided with hdecided | hnow
    · refine h.accepted q hq hqid ?_ ?_
      · rw [← haccepted]
        exact (congrArg Prod.fst hdecided).symm
      · rw [← hversion]
        exact (congrArg Prod.snd hdecided).symm
    · rw [hnow, Option.some.injEq] at hversion
      exact (h.since q hq hqid).2 hversion

/-- Some earlier state of the run had the quote of this id at this version. -/
def WasAt (options : Options) (w₀ : World) (requests : List Request) (id : Id) (version : ℕ) : Prop :=
  ∃ first rest, requests = first ++ rest ∧
    ∃ old ∈ (serveAll options w₀ first).store.quotes, old.id = id ∧ old.quote.version = version

/-- An accepted quote was once at the version it was accepted on. -/
theorem wasAt_of_accepted (options : Options) (w₀ : World) (hfresh : w₀.Fresh)
    (requests : List Request) : ∀ q ∈ (serveAll options w₀ requests).store.quotes,
      q.quote.customerDecision = .accepted → ∃ version,
        q.quote.customerDecisionVersion = some version ∧ WasAt options w₀ requests q.id version := by
  induction requests using List.reverseRecOn with
  | nil =>
      intro q hq
      have hq : q ∈ w₀.store.quotes := hq
      rw [hfresh.quotes] at hq
      cases hq
  | append_singleton requests request ih =>
      intro q' hq' haccepted
      have hrun : serveAll options w₀ (requests ++ [request])
          = serve options (serveAll options w₀ requests) request := Machine.run_concat ..
      rw [hrun] at hq'
      obtain ⟨q, hq, hstep⟩ := step_of_accepted hq' haccepted
      rw [hstep.id]
      rcases hstep.decided with hdecided | hnow
      · have hbefore : q.quote.customerDecision = .accepted := by
          rw [← haccepted]
          exact (congrArg Prod.fst hdecided).symm
        obtain ⟨version, hversion, first, rest, rfl, old, hold⟩ := ih q hq hbefore
        refine ⟨version, ?_, first, rest ++ [request], List.append_assoc .., old, hold⟩
        rw [← hversion]
        exact congrArg Prod.snd hdecided
      · exact ⟨_, hnow, requests, [request], rfl, q, hq, rfl, rfl⟩

end Runs

/-- In every run that leaves the lines of accepted quotes at their terms, an accepted quote has the terms
it had at the version it was accepted on: it was at that version once, and whenever it was, it had
them. -/
theorem acceptance_binds (options : Options) (w₀ : World) (hfresh : w₀.Fresh)
    (requests : List Request)
    (hmeets : Machine.Meets (serve options) (LeavesAccepted options) w₀ requests) :
    ∀ q ∈ (serveAll options w₀ requests).store.quotes, q.quote.customerDecision = .accepted →
      ∃ version, q.quote.customerDecisionVersion = some version ∧
        WasAt options w₀ requests q.id version ∧
        ∀ first rest, requests = first ++ rest →
          ∀ old ∈ (serveAll options w₀ first).store.quotes, old.id = q.id →
            old.quote.version = version → q.terms = old.terms := by
  intro q hq haccepted
  obtain ⟨version, hversion, hwas⟩ := wasAt_of_accepted options w₀ hfresh requests q hq haccepted
  refine ⟨version, hversion, hwas, ?_⟩
  rintro first rest rfl old hold hid rfl
  have hstart : Remembers old (serveAll options w₀ first) :=
    .start (hfresh.indexed.serveAll options first)
      (Machine.invariant (fun _ request h => h.serve options request) hfresh.productsKnown first) hold
  have hend : Remembers old (serveAll options w₀ (first ++ rest)) := by
    rw [Machine.meets_append] at hmeets
    rw [serveAll, Machine.run_append]
    exact Machine.invariant_of_meets (fun _ _ h hleaves => h.serve hleaves) hstart hmeets.2
  unfold QuoteAggregate.terms
  rw [hend.accepted q hq hid.symm haccepted hversion]

/-- Two gateways, accepted as quoted; later a salesperson notes that five were asked for, and the quote
goes to the manager. -/
def acceptedDeal : List Request :=
  [{ operation := .createQuote 1 none [{ productId := 11, quantity := 2, discountPercent := 0 }]
       administrator },
   { operation := .edit (.agreeToFinal 100 1) },
   { operation := .edit (.createNegotiationRequest 100
       { note := "five, please", actorRole := some "salesperson"
         requestedLines := [{ lineId := some 102, quantity := some 5 }] } none) },
   { operation := .edit (.sendNegotiationToManager 100 none 3) }]

/-- The manager has the two gateways the customer accepted. -/
theorem acceptance_binds_noted :
    let w := serveAll plainOptions startWorld acceptedDeal
    ∃ q ∈ w.store.quotes, q.quote.status = .managerReview ∧ q.quote.customerDecision = .accepted ∧
      ∀ old ∈ (serveAll plainOptions startWorld (acceptedDeal.take 1)).store.quotes,
        old.id = q.id → q.quote.customerDecisionVersion = some old.quote.version →
          q.terms = old.terms := by
  intro w
  have hmeets : Machine.Meets (serve plainOptions) (LeavesAccepted plainOptions) startWorld
      acceptedDeal :=
    ⟨trivial, fun a _ _ _ => trivial, fun a _ _ _ hrole => absurd hrole (by decide),
      fun a _ _ _ => trivial, trivial⟩
  have hquote : ∃ q ∈ w.store.quotes, q.quote.status = .managerReview ∧
      q.quote.customerDecision = .accepted := by decide +kernel
  obtain ⟨q, hq, hstatus, haccepted⟩ := hquote
  obtain ⟨version, hversion, -, hterms⟩ :=
    acceptance_binds plainOptions startWorld startWorld_fresh acceptedDeal hmeets q hq haccepted
  refine ⟨q, hq, hstatus, haccepted, fun old hold hid hsame => ?_⟩
  rw [hversion, Option.some.injEq] at hsame
  exact hterms (acceptedDeal.take 1) (acceptedDeal.drop 1) rfl old hold hid hsame.symm

/-- After two gateways were accepted at version 1, a third line is added and the acceptance of version 1
stays on record. -/
theorem accepted_terms_changed :
    let accepted := serveAll plainOptions startWorld (acceptedDeal.take 2)
    let added : Request :=
      { operation := .edit (.addLine 100 { productId := 12, quantity := 1, discountPercent := 0 } 2
          administrator) }
    succeeds plainOptions accepted added = true ∧
      ∃ q ∈ (serve plainOptions accepted added).store.quotes,
        q.quote.customerDecision = .accepted ∧ q.quote.customerDecisionVersion = some 1 ∧
          ∃ old ∈ (serveAll plainOptions startWorld (acceptedDeal.take 1)).store.quotes,
            old.id = q.id ∧ old.quote.version = 1 ∧ q.terms ≠ old.terms := by
  decide +kernel

end DealFlow360
