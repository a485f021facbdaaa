import DealFlow360.ClosedQuote

/-!
# The price of a line

Portal changes and manager revisions ask the quantity breaks with the
customer's tier; new lines and replaced products ask without it, and negotiated
quantities do not ask at all. This module says of every operation when the
lines it leaves have the price the breaks give their product, quantity and
tier.

`PricedByRule` says that a line has the price that the breaks give its product,
quantity and tier. Each operation's way of pricing has a lemma:
`priced_editLine`, `reprice_priced`, and one for the quantities that an answer
accepts.

- `prices_coherent`: in every run whose requests go by the rule, a request that
  states no unit price leaves the lines it changes at the price of the breaks,
  and while catalog, breaks and tiers stay as they are every stored line has
  it;
- `asked_price_incoherent`: an accepted quantity of twelve at the price of two.

The condition is on the request and on the pure price functions.
-/

namespace DealFlow360

open Program

/-! ## Lines -/

section Lines

variable {store : Store} {tier : CustomerTier} {before lines : List QuoteLine} {line : QuoteLine}

/-- The line has the price of its product and quantity for the tier. -/
def AtRulePrice (store : Store) (tier : CustomerTier) (line : QuoteLine) : Prop :=
  ∀ product, store.getProduct line.productId = some product →
    line.listPrice = rulePriceFor store tier product line.quantity

/-- The line was there before, with the same product, quantity and price. -/
def Kept (before : List QuoteLine) (line : QuoteLine) : Prop :=
  ∃ old ∈ before, old.id = line.id ∧ old.productId = line.productId ∧
    old.quantity = line.quantity ∧ old.listPrice = line.listPrice

/-- Asked without the tier, the breaks answer as they do with it. -/
def TierFree (store : Store) (tier : CustomerTier) (productId : Id) (quantity : Num) : Prop :=
  ∀ product ∈ store.getProduct productId,
    (resolveUnitPrice product quantity store.quantityBreaks none).unitPrice
      = rulePriceFor store tier product quantity

instance (store : Store) (tier : CustomerTier) (productId : Id) (quantity : Num) :
    Decidable (TierFree store tier productId quantity) :=
  inferInstanceAs (Decidable (∀ product ∈ store.getProduct productId, _))

/-- A quantity a negotiation asks for is the one its line has, or has the price the line has. -/
def RestatedAtRule (store : Store) (tier : CustomerTier) (before : List QuoteLine)
    (item : NegotiationRequestedLine) : Prop :=
  ∀ line ∈ before, item.lineId = some line.id → item.action ≠ some .remove →
    ∀ quantity, item.quantity = some quantity → quantity = line.quantity ∨
      AtRulePrice store tier { line with quantity }

theorem getProduct_id {id : Id} {product : Product} (h : store.getProduct id = some product) :
    product.id = id := by
  simpa using List.find?_some h

theorem atRulePrice_newLine (id quoteId : Id) {product : Product} {input : LineInput}
    (hfree : TierFree store tier input.productId input.quantity)
    (hproduct : store.getProduct input.productId = some product) :
    AtRulePrice store tier (newLine store id quoteId product input) := by
  intro found hfound
  have hid : (newLine store id quoteId product input).productId = input.productId :=
    getProduct_id hproduct
  rw [hid, hproduct] at hfound
  obtain rfl := Option.some.inj hfound
  exact hfree product hproduct

theorem atRulePrice_reprice {product : Product}
    (hproduct : store.getProduct line.productId = some product) :
    AtRulePrice store tier
      { line with listPrice := rulePriceFor store tier product line.quantity } := by
  intro found hfound
  rw [show store.getProduct line.productId = some found from hfound] at hproduct
  obtain rfl := Option.some.inj hproduct
  rfl

theorem kept_self (hline : line ∈ before) : Kept before line :=
  ⟨line, hline, rfl, rfl, rfl, rfl⟩

/-- Editing one line keeps the others as they are. -/
theorem priced_editLine {lineId : Id} {f : QuoteLine → QuoteLine}
    (h : ∀ line ∈ lines, Kept before line ∨ AtRulePrice store tier line)
    (hf : ∀ line, Kept before line ∨ AtRulePrice store tier line →
      Kept before (f line) ∨ AtRulePrice store tier (f line)) :
    ∀ line ∈ editLine lineId f lines, Kept before line ∨ AtRulePrice store tier line := by
  intro line hline
  rcases Table.mem_modifyFirst hline with hline | ⟨current, hcurrent, -, rfl⟩
  · exact h line hline
  · exact hf current (h current hcurrent)

/-! ## Manager revisions and portal changes -/

/-- A manager's change that states a quantity names no product the catalog lacks. -/
def NamesKnownProduct (store : Store) (change : ManagerChange) : Prop :=
  change.quantity.isSome = true → ∀ productId, change.productId = some productId →
    (store.getProduct productId).isSome = true

theorem ManagerChange.apply_priced {change : ManagerChange} (hknown : NamesKnownProduct store change)
    (h : Kept before line ∨ AtRulePrice store tier line) :
    Kept before (change.apply store tier line) ∨
      AtRulePrice store tier (change.apply store tier line) := by
  unfold ManagerChange.apply
  dsimp only
  cases hproduct : store.getProduct (change.productId.getD line.productId) with
  | none =>
      dsimp only
      cases hnamed : change.productId with
      | none =>
          rw [hnamed] at hproduct
          right
          intro product hfound
          rw [show store.getProduct line.productId = none from hproduct] at hfound
          cases hfound
      | some productId =>
          rw [hnamed] at hproduct
          have hquantity : change.quantity = none := by
            by_contra hsome
            have hfound := hknown (Option.isSome_iff_ne_none.mpr hsome) productId hnamed
            rw [show store.getProduct productId = none from hproduct] at hfound
            cases hfound
          rw [hquantity]
          rcases h with h | h
          · exact .inl h
          · exact .inr h
  | some product =>
      dsimp only
      refine .inr (atRulePrice_reprice ?_)
      split
      · show store.getProduct product.id = some product
        rw [getProduct_id hproduct]
        exact hproduct
      · rename_i hsame
        have hproductId : change.productId.getD line.productId = line.productId := by
          cases hnamed : change.productId with
          | none => rfl
          | some productId => simpa [hnamed] using hsame
        rw [hproductId] at hproduct
        exact hproduct

theorem reviseLine_priced {changes : List ManagerChange} {revised : List QuoteLine × List Num}
    (hknown : ∀ change ∈ changes, NamesKnownProduct store change)
    (h : changes.foldlM (reviseLine store tier) (before, []) = .ok revised) :
    ∀ line ∈ revised.1, Kept before line ∨ AtRulePrice store tier line := by
  refine except_foldlM_invariant (fun revised => ∀ line ∈ revised.1, Kept before line ∨
    AtRulePrice store tier line) changes ?_ (before, []) revised ?_ h
  · intro change hchange revised next hpriced hstep
    unfold reviseLine at hstep
    split at hstep
    · cases hstep
    · obtain rfl := Except.ok.inj hstep
      exact priced_editLine hpriced fun line hline => ManagerChange.apply_priced (hknown change hchange) hline
  · exact fun line hline => .inl (kept_self hline)

theorem changeLine_priced {changes : List PortalLineChange}
    (h : changes.foldlM (changeLine store tier) before = .ok lines) :
    ∀ line ∈ lines, Kept before line ∨ AtRulePrice store tier line := by
  refine except_foldlM_invariant (fun lines => ∀ line ∈ lines, Kept before line ∨
    AtRulePrice store tier line) changes ?_ before lines ?_ h
  · intro change hchange lines next hpriced hstep
    unfold changeLine at hstep
    split at hstep
    · cases hstep
    · obtain rfl := Except.ok.inj hstep
      refine priced_editLine hpriced fun line hline => .inr ?_
      unfold PortalLineChange.apply
      dsimp only
      split
      · rename_i hproduct
        intro product hfound
        rw [show store.getProduct line.productId = none from hproduct] at hfound
        cases hfound
      · rename_i product hproduct
        exact atRulePrice_reprice (show store.getProduct ({ line with
          quantity := change.quantity.getD line.quantity } : QuoteLine).productId = some product
          from hproduct)
  · exact fun line hline => .inl (kept_self hline)

/-! ## Negotiated quantities -/

/-- The line has the product and price of an earlier one, and its quantity or the price of its own. -/
def Restated (store : Store) (tier : CustomerTier) (before : List QuoteLine) (line : QuoteLine) :
    Prop :=
  ∃ old ∈ before, old.id = line.id ∧ old.productId = line.productId ∧
    old.listPrice = line.listPrice ∧ (old.quantity = line.quantity ∨ AtRulePrice store tier line)

theorem Restated.priced (h : Restated store tier before line) :
    Kept before line ∨ AtRulePrice store tier line := by
  obtain ⟨old, hold, hid, hproduct, hprice, hquantity | hrule⟩ := h
  · exact .inl ⟨old, hold, hid, hproduct, hquantity, hprice⟩
  · exact .inr hrule

theorem restated_self (hline : line ∈ before) : Restated store tier before line :=
  ⟨line, hline, rfl, rfl, rfl, .inl rfl⟩

theorem restated_setRequestedQuantity {item : NegotiationRequestedLine}
    (hitem : RestatedAtRule store tier before item)
    (h : ∀ line ∈ lines, Restated store tier before line) :
    ∀ line ∈ setRequestedQuantity lines item, Restated store tier before line := by
  unfold setRequestedQuantity
  split
  · exact h
  · exact h
  · rename_i lineId action hlineId hremove
    intro line hline
    rcases Table.mem_modifyFirst hline with hline | ⟨current, hcurrent, hid, rfl⟩
    · exact h line hline
    · obtain ⟨old, hold, holdId, hproduct, hprice, hquantity⟩ := h current hcurrent
      cases hasked : item.quantity with
      | none => exact ⟨old, hold, holdId, hproduct, hprice, hquantity⟩
      | some quantity =>
          refine ⟨old, hold, holdId, hproduct, hprice, ?_⟩
          have hnamed : item.lineId = some old.id := by
            rw [hlineId, holdId, of_decide_eq_true hid]
          rcases hitem old hold hnamed hremove quantity hasked with hsame | hrule
          · exact .inl hsame.symm
          · right
            intro product hfound
            rw [show (_ : QuoteLine).listPrice = old.listPrice from hprice.symm]
            exact hrule product (by rw [← hfound]; exact congrArg store.getProduct hproduct)

theorem restated_requestedQuantities {input : NegotiationInput} {role : Option String}
    (hitems : isCustomerRole role = true →
      ∀ item ∈ input.requestedLines, RestatedAtRule store tier before item) :
    ∀ line ∈ requestedQuantities before input role, Restated store tier before line := by
  unfold requestedQuantities
  split
  · rename_i hrole
    refine List.foldlRecOn (motive := fun lines => ∀ line ∈ lines, Restated store tier before line)
      input.requestedLines setRequestedQuantity (fun line hline => restated_self hline)
      fun lines h item hitem => ?_
    exact restated_setRequestedQuantity (hitems hrole item hitem) h
  · exact fun line hline => restated_self hline

theorem restated_acceptRequested {env : Env} {a : QuoteAggregate} {actor : Actor}
    {item : NegotiationRequestedLine} {lines' : List QuoteLine} {w w' : World}
    (hitem : RestatedAtRule store tier before item)
    (h : ∀ line ∈ lines, Restated store tier before line)
    (haccept : acceptRequested env a actor lines item w = .ok lines' w') :
    ∀ line ∈ lines', Restated store tier before line := by
  have hset := restated_setRequestedQuantity hitem h
  rcases acceptRequested_eq_ok haccept with ⟨-, rfl⟩ | ⟨-, ⟨-, rfl⟩ | ⟨-, lineId, discount, rfl⟩⟩
  · exact h
  · exact hset
  · intro line hline
    rcases Table.mem_modifyFirst hline with hline | ⟨current, hcurrent, -, rfl⟩
    · exact hset line hline
    · exact hset current hcurrent

/-! ## Updated lines -/

/-- What a repriced line has: the price it is to take, or its own where neither product nor quantity is
restated. -/
theorem reprice_priced {input : LineUpdate} {quoteId : Id} {rulePrice : Num} {found : QuoteLine}
    {w w' : World} (hmem : found ∈ before) (hunstated : input.unitPrice = none)
    (hfree : ∀ productId, input.productId = some productId → productId ≠ found.productId →
      TierFree w.store tier productId (input.quantity.getD found.quantity))
    (hrule : ∀ product, w.store.getProduct found.productId = some product →
      rulePrice = rulePriceFor w.store tier product (input.restate found).quantity)
    (h : input.reprice quoteId rulePrice (input.restate found) w = .ok line w') :
    Kept before line ∨ AtRulePrice w.store tier line := by
  unfold LineUpdate.reprice at h
  cases hproductId : input.productId.filter
      fun productId => productId ≠ (input.restate found).productId with
  | some productId =>
      simp only [hproductId, bind_eq_ok, pure_eq_ok] at h
      obtain ⟨replacement, _, hreplacement, rfl, -⟩ := h
      obtain ⟨product, hproduct, rfl, -⟩ := toLine_eq_ok hreplacement
      obtain ⟨hnamed, hother⟩ := Option.filter_eq_some_iff.mp hproductId
      exact .inr (atRulePrice_newLine w.nextUuid quoteId
        (hfree productId hnamed (of_decide_eq_true hother)) hproduct)
  | none =>
      simp only [hproductId, hunstated] at h
      obtain ⟨rfl, -⟩ := pure_eq_ok.mp h
      cases hquantity : input.quantity with
      | none =>
          refine .inl ⟨found, hmem, rfl, rfl, ?_, rfl⟩
          show found.quantity = input.quantity.getD found.quantity
          rw [hquantity]
          rfl
      | some quantity => exact .inr hrule

end Lines

/-! ## Edits -/

/-- An edit of the quote `a` that leaves its changed lines at the price the breaks give them. -/
def EditByRule (store : Store) (a : QuoteAggregate) : QuoteEdit → Prop
  | .addLine _ input _ _ => TierFree store a.customer.tier input.productId input.quantity
  | .updateLine _ lineId input _ _ => ∀ line ∈ a.lines, line.id = lineId →
      ∀ productId, input.productId = some productId → productId ≠ line.productId →
        TierFree store a.customer.tier productId (input.quantity.getD line.quantity)
  | .applyRecommendation _ relationId _ _ => ∀ relation ∈ store.relations, relation.id = relationId →
      TierFree store a.customer.tier relation.recommendedProductId 1
  | .reviseAsManager _ changes _ _ => ∀ change ∈ changes, NamesKnownProduct store change
  | .createNegotiationRequest _ input actor =>
      isCustomerRole (input.actorRole.or (actor.bind (·.role))) = true →
        ∀ item ∈ input.requestedLines, RestatedAtRule store a.customer.tier a.lines item
  | .createPortalNegotiation _ input =>
      ∀ item ∈ input.requestedLines, RestatedAtRule store a.customer.tier a.lines item
  | .respondToNegotiation quoteId negotiationId .accepted _ _ _ =>
      ∀ request, findNegotiation store quoteId negotiationId = .ok request →
        ∀ item ∈ request.requestedLines, RestatedAtRule store a.customer.tier a.lines item
  | _ => True

/-- Whether an edit states the unit price of a line itself. -/
def QuoteEdit.statesUnitPrice : QuoteEdit → Bool
  | updateLine _ _ input _ _ => input.unitPrice.isSome
  | _ => false

theorem findRecommendation_eq_ok {store : Store} {lines : List QuoteLine} {relationId : Id}
    {relation : ProductRelation} (h : findRecommendation store lines relationId = .ok relation) :
    relation ∈ store.relations ∧ relation.id = relationId := by
  unfold findRecommendation at h
  split at h
  · cases h
  · rename_i found hfound
    split at h
    · obtain rfl := Except.ok.inj h
      exact ⟨List.mem_of_find?_eq_some hfound, by simpa using List.find?_some hfound⟩
    · cases h

theorem Relines.priced {env : Env} {w w' : World} {a : QuoteAggregate} {op : QuoteEdit}
    {lines : List QuoteLine} (h : Relines env w w' a op lines) (hrule : EditByRule w.store a op)
    (hunstated : op.statesUnitPrice = false) :
    ∀ line ∈ lines, Kept a.lines line ∨ AtRulePrice w.store a.customer.tier line := by
  cases h with
  | addLine hline hid =>
      obtain ⟨product, hproduct, rfl, -⟩ := toLine_eq_ok hline
      intro line hmem
      rcases List.mem_append.mp hmem with hmem | hmem
      · exact .inl (kept_self hmem)
      · obtain rfl := List.mem_singleton.mp hmem
        exact .inr (atRulePrice_newLine _ _ hrule hproduct)
  | @updateLine quoteId lineId input version actor found line rulePrice w₁ hfound hprice hline =>
      have hmem := Table.mem_of_lookup hfound
      have hunit : input.unitPrice = none :=
        Option.not_isSome_iff_eq_none.mp (Bool.eq_false_iff.mp hunstated)
      have hpriced := reprice_priced hmem hunit (hrule found hmem (Table.key_of_lookup hfound)) hprice
        hline
      intro other hother
      rcases Table.mem_modifyFirst hother with hother | ⟨current, -, -, rfl⟩
      · exact .inl (kept_self hother)
      · exact hpriced
  | removeLine => exact fun line hline => .inl (kept_self (List.mem_of_mem_filter hline))
  | @applyRecommendation quoteId relationId actor version line w₁ relation hrelation hline hid =>
      obtain ⟨product, hproduct, rfl, -⟩ := toLine_eq_ok hline
      obtain ⟨hmem, hrelationId⟩ := findRecommendation_eq_ok hrelation
      intro line hline
      rcases List.mem_append.mp hline with hline | hline
      · exact .inl (kept_self hline)
      · obtain rfl := List.mem_singleton.mp hline
        exact .inr (atRulePrice_newLine w.nextUuid quoteId (hrule _ hmem hrelationId) hproduct)
  | reviseAsManager hrevised => exact reviseLine_priced hrule hrevised
  | createNegotiationRequest =>
      exact fun line hline => (restated_requestedQuantities hrule line hline).priced
  | createPortalNegotiation =>
      exact fun line hline => (restated_requestedQuantities (fun _ => hrule) line hline).priced
  | applyPortalChange hlines => exact changeLine_priced hlines
  | respondToNegotiation hrequest hlines =>
      have hrestated := foldlM_invariant
        (fun (lines : List QuoteLine) _ => ∀ line ∈ lines,
          Restated w.store a.customer.tier a.lines line) _
        (fun item hitem lines w₁ lines' w₂ h haccept =>
          restated_acceptRequested (hrule _ hrequest item hitem) h haccept)
        a.lines w _ _ (fun line hline => restated_self hline) hlines
      exact fun line hline => (hrestated line hline).priced

/-! ## One request -/

/-- A request that leaves the lines it changes at the price the breaks give them. -/
def ByRule (options : Options) (w : World) (request : Request) : Prop :=
  match request.operation with
  | .edit op => ∀ a, (op.mutation (request.env options)).load w = .ok a w → EditByRule w.store a op
  | .createQuote customerId _ inputs _ => ∀ customer ∈ w.store.getCustomer customerId,
      ∀ input ∈ inputs, TierFree w.store customer.tier input.productId input.quantity
  | _ => True

def Request.statesUnitPrice (request : Request) : Bool :=
  match request.operation with
  | .edit op => op.statesUnitPrice
  | _ => false

/-- The line of `q` has the unit price of its product and quantity for the customer's tier. -/
def PricedByRule (store : Store) (q : QuoteAggregate) (line : QuoteLine) : Prop :=
  ∃ product ∈ store.getProduct line.productId, ∃ tier ∈ store.tierOf q,
    line.listPrice
      = (resolveUnitPrice product line.quantity store.quantityBreaks (some tier)).unitPrice

instance (store : Store) (q : QuoteAggregate) (line : QuoteLine) :
    Decidable (PricedByRule store q line) :=
  inferInstanceAs (Decidable (∃ product ∈ store.getProduct line.productId, ∃ tier ∈ store.tierOf q, _))

/-- Every product of a stored quote is in the catalog. -/
theorem exists_product_of_pairs {store : Store} {lines : List QuoteLine}
    {pairs : List (QuoteLine × Product)} (h : pairProducts store lines = .ok pairs)
    {line : QuoteLine} (hline : line ∈ lines) :
    ∃ product, store.getProduct line.productId = some product := by
  rw [← pairProducts_fst h] at hline
  obtain ⟨entry, hentry, rfl⟩ := List.mem_map.mp hline
  exact ⟨entry.2, pairProducts_snd h entry hentry⟩

variable {options : Options} {w : World} {request : Request} {q q' : QuoteAggregate}

theorem QuoteStep.priced (h : QuoteStep options w request q q') (hrule : ByRule options w request)
    (hunstated : request.statesUnitPrice = false) :
    ∀ line ∈ q'.lines, Kept q.lines line ∨ PricedByRule w.store q' line := by
  have hidentity := h.identity
  cases h with
  | untouched => exact fun line hline => .inl (kept_self hline)
  | assessed hop hq hid hpairs =>
      rw [← hq.lines]
      exact fun line hline => .inl (kept_self hline)
  | @edited op a b w₁ pairs hop hload hq hedit hframe hchange hpairs hnext =>
      intro line hline
      have hmem : line ∈ b.lines := hline
      rw [← hq.lines]
      rcases hchange.lines with hsame | ⟨lines, hlines, hrelines, -⟩
      · rw [hsame] at hmem
        exact .inl (kept_self hmem)
      · rw [hlines] at hmem
        have hedits : EditByRule w.store a op := by
          simp only [ByRule, hop] at hrule
          exact hrule a hload
        have hstates : op.statesUnitPrice = false := by
          simpa only [Request.statesUnitPrice, hop] using hunstated
        rcases hrelines.priced hedits hstates line hmem with hkept | hpriced
        · exact .inl hkept
        · obtain ⟨product, hproduct⟩ := exists_product_of_pairs hpairs hline
          rw [show w₁.store.getProduct = w.store.getProduct by rw [hframe.store]; rfl] at hproduct
          exact .inr ⟨product, hproduct, a.customer.tier,
            (tierOf_of_identity hidentity).trans hq.tierOf, hpriced product hproduct⟩

theorem Created.priced (h : Created options w request q) (hrule : ByRule options w request) :
    ∀ line ∈ q.lines, PricedByRule w.store q line := by
  cases h with
  | @intro customerId ownerId inputs actor b w₁ pairs hop hframe hdraft hpairs hnext =>
      intro line hline
      obtain ⟨id, product, input, hinput, hproduct, rfl, -⟩ := hdraft.lines line hline
      simp only [ByRule, hop] at hrule
      have hcustomer := hdraft.customer
      rw [hdraft.customerId] at hcustomer
      have hpriced := atRulePrice_newLine id b.id (hrule _ hcustomer input hinput) hproduct
      have hsame : w.store.getProduct product.id = some product := by
        rw [getProduct_id hproduct]
        exact hproduct
      refine ⟨product, hsame, b.customer.tier, ?_, hpriced product hsame⟩
      show (w.store.getCustomer b.quote.customerId).map (·.tier) = some b.customer.tier
      rw [hdraft.customerId, hcustomer]
      rfl

/-! ## Every run -/

/-- After the request, each line of each quote that is new, or has another product or quantity than
before, has the unit price of its product, quantity and tier. -/
def ChangesByRule (options : Options) (w : World) (request : Request) : Prop :=
  ∀ q' ∈ (serve options w request).store.quotes, ∀ line ∈ q'.lines,
    (∀ q ∈ w.store.quotes, q.id = q'.id → ∀ old ∈ q.lines,
      ¬(old.id = line.id ∧ old.productId = line.productId ∧ old.quantity = line.quantity)) →
    PricedByRule w.store q' line

instance (options : Options) (w : World) (request : Request) :
    Decidable (ChangesByRule options w request) :=
  inferInstanceAs (Decidable (∀ q' ∈ _, ∀ line ∈ _, (∀ q ∈ _, _ → ∀ old ∈ _, ¬_) → _))

theorem changesByRule (hrule : ByRule options w request)
    (hunstated : request.statesUnitPrice = false) : ChangesByRule options w request := by
  intro q' hq' line hline hchanged
  rcases quote_of_serve hq' with ⟨q, hq, hstep⟩ | hcreated
  · rcases hstep.priced hrule hunstated line hline with ⟨old, hold, hid, hproduct, hquantity, -⟩ | h
    · exact absurd ⟨hid, hproduct, hquantity⟩ (hchanged q hq hstep.id.symm old hold)
    · exact h
  · exact hcreated.priced hrule line hline

/-- The request leaves products, quantity breaks and tiers as they are, and states no unit price. -/
structure KeepsRules (options : Options) (w : World) (request : Request) : Prop where
  products : (serve options w request).store.products = w.store.products
  quantityBreaks : (serve options w request).store.quantityBreaks = w.store.quantityBreaks
  tiers : ∀ id, ((serve options w request).store.getCustomer id).map (·.tier)
    = (w.store.getCustomer id).map (·.tier)
  unstated : request.statesUnitPrice = false

theorem KeepsRules.of_customers
    (hproducts : (serve options w request).store.products = w.store.products)
    (hbreaks : (serve options w request).store.quantityBreaks = w.store.quantityBreaks)
    (hcustomers : (serve options w request).store.customers = w.store.customers)
    (hunstated : request.statesUnitPrice = false) : KeepsRules options w request where
  products := hproducts
  quantityBreaks := hbreaks
  tiers id := by
    rw [Store.getCustomer, hcustomers]
    rfl
  unstated := hunstated

theorem PricedByRule.serve {line : QuoteLine} (hkeeps : KeepsRules options w request)
    (h : PricedByRule w.store q line) : PricedByRule (serve options w request).store q line := by
  obtain ⟨product, hproduct, tier, htier, hprice⟩ := h
  refine ⟨product, ?_, tier, (hkeeps.tiers _).trans htier, ?_⟩
  · rw [Store.getProduct, hkeeps.products]
    exact hproduct
  · rw [hkeeps.quantityBreaks]
    exact hprice

theorem PricedByRule.of_kept {line : QuoteLine} (hkept : Kept q.lines line)
    (h : ∀ old ∈ q.lines, PricedByRule w.store q old) (hidentity : q'.identity = q.identity) :
    PricedByRule w.store q' line := by
  obtain ⟨old, hold, -, hproduct, hquantity, hprice⟩ := hkept
  obtain ⟨product, hfound, tier, htier, hrule⟩ := h old hold
  refine ⟨product, by rw [← hproduct]; exact hfound, tier,
    (tierOf_of_identity hidentity).trans htier, ?_⟩
  rw [← hprice, ← hquantity]
  exact hrule

/-- In every run whose requests leave the lines they change at the price of the breaks: so does each of
them, and while catalog, breaks and tiers stand, the price of every stored line is the one of its
product, quantity and tier, whichever operations brought it there. -/
theorem prices_coherent (options : Options) (w₀ : World) (hfresh : w₀.Fresh)
    (requests : List Request) (hmeets : Machine.Meets (serve options) (ByRule options) w₀ requests) :
    (∀ first request rest, requests = first ++ request :: rest → request.statesUnitPrice = false →
      ChangesByRule options (serveAll options w₀ first) request) ∧
    (Machine.Meets (serve options) (KeepsRules options) w₀ requests →
      let w := serveAll options w₀ requests
      ∀ q ∈ w.store.quotes, ∀ line ∈ q.lines, PricedByRule w.store q line) := by
  constructor
  · intro first request rest heq hunstated
    rw [heq, Machine.meets_append] at hmeets
    exact changesByRule hmeets.2.1 hunstated
  · intro hkeeps
    have hstep (w : World) (request : Request)
        (h : ∀ q ∈ w.store.quotes, ∀ line ∈ q.lines, PricedByRule w.store q line)
        (hmeets : ByRule options w request ∧ KeepsRules options w request) :
        ∀ q ∈ (serve options w request).store.quotes, ∀ line ∈ q.lines,
          PricedByRule (serve options w request).store q line := by
      intro q' hq' line hline
      refine PricedByRule.serve hmeets.2 ?_
      rcases quote_of_serve hq' with ⟨q, hq, hquote⟩ | hcreated
      · rcases hquote.priced hmeets.1 hmeets.2.unstated line hline with hkept | hpriced
        · exact .of_kept hkept (h q hq) hquote.identity
        · exact hpriced
      · exact hcreated.priced hmeets.1 line hline
    refine Machine.invariant_of_meets hstep ?_ (Machine.meets_and.mpr ⟨hmeets, hkeeps⟩)
    rw [hfresh.quotes]
    exact fun q hq => absurd hq List.not_mem_nil

/-- A deal for two gateways at their list price, revised to twelve in the portal. -/
def portalDeal : List Request :=
  [{ operation := .createQuote 1 none [{ productId := 11, quantity := 2, discountPercent := 0 }]
       administrator },
   { operation := .edit (.applyPortalChange 101 1 [{ lineId := 102, quantity := some 12 }]) }]

/-- The portal's twelve gateways have the price of ten or more. -/
theorem prices_coherent_portal :
    let w := serveAll plainOptions startWorld portalDeal
    ∃ q ∈ w.store.quotes, q.lines.map (·.quantity) = [12] ∧
      ∀ line ∈ q.lines, PricedByRule w.store q line := by
  intro w
  have hmeets : Machine.Meets (serve plainOptions) (ByRule plainOptions) startWorld portalDeal := by
    refine ⟨?_, fun a _ => trivial, trivial⟩
    show ∀ customer ∈ startWorld.store.getCustomer 1, _
    decide
  have hcoherent := (prices_coherent plainOptions startWorld startWorld_fresh portalDeal hmeets).2
    ⟨.of_customers (by decide +kernel) (by decide +kernel) (by decide +kernel) rfl,
      .of_customers (by decide +kernel) (by decide +kernel) (by decide +kernel) rfl, trivial⟩
  have hquote : ∃ q ∈ w.store.quotes, q.lines.map (·.quantity) = [12] := by decide +kernel
  obtain ⟨q, hq, hquantities⟩ := hquote
  exact ⟨q, hq, hquantities, hcoherent q hq⟩

/-- A customer who asks for twelve gateways instead gets them at the price of two. -/
theorem asked_price_incoherent :
    let w := serveAll plainOptions startWorld
      [{ operation := .createQuote 1 none [{ productId := 11, quantity := 2, discountPercent := 0 }]
           administrator }]
    let asked : Request :=
      { operation := .edit (.createNegotiationRequest 100
          { note := "twelve, please", actorRole := some "customer"
            requestedLines := [{ lineId := some 102, quantity := some 12 }] } none) }
    succeeds plainOptions w asked = true ∧ asked.statesUnitPrice = false ∧
      (∃ q ∈ (serve plainOptions w asked).store.quotes,
        q.lines.map (fun line => (line.quantity, line.listPrice)) = [(12, 4000)]) ∧
      ¬ChangesByRule plainOptions w asked := by
  decide +kernel

end DealFlow360
