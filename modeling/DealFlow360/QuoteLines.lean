import DealFlow360.ClosedQuote
import DealFlow360.Footprint

/-!
# The lines of stored quotes

The lines of a quote have ids of their own, all from the supply, and name
products of the catalog: a save looks every product up, and a product that a
line names cannot be deleted.

`Relines` is what an edit can do to the lines: drop some, restate some, add one
with a new id. `editLine_view`, `requestedQuantities_view` and
`acceptRequested_view` say which view of the lines each way of restating keeps.
Two invariants over all runs follow: the ids of a quote's lines are distinct,
and every line names a product of the catalog, since a product in use cannot be
deleted.
-/

namespace DealFlow360

open Program

/-! ## Line ids -/

section LineIds

variable {lines lines' : List QuoteLine}

/-- An edit of single lines that keeps a view of each keeps the list of views. -/
theorem editLine_view {β : Type} {g : QuoteLine → β} {f : QuoteLine → QuoteLine}
    (hf : ∀ line, g (f line) = g line) (lineId : Id) (lines : List QuoteLine) :
    (editLine lineId f lines).map g = lines.map g :=
  Table.map_modifyFirst hf lines

theorem managerChange_id (store : Store) (tier : CustomerTier) (change : ManagerChange)
    (line : QuoteLine) : (change.apply store tier line).id = line.id := by
  unfold ManagerChange.apply
  dsimp only
  split
  · rfl
  · split <;> rfl

theorem reviseLine_ids {store : Store} {tier : CustomerTier} {changes : List ManagerChange}
    {revised : List QuoteLine × List Num}
    (h : changes.foldlM (reviseLine store tier) (lines, []) = .ok revised) :
    revised.1.map (·.id) = lines.map (·.id) := by
  refine except_foldlM_invariant (fun revised => revised.1.map (·.id) = lines.map (·.id)) changes ?_
    (lines, []) revised rfl h
  intro change _ before after hbefore hstep
  unfold reviseLine at hstep
  split at hstep
  · cases hstep
  · obtain rfl := Except.ok.inj hstep
    exact (editLine_view (managerChange_id store tier change) _ _).trans hbefore

theorem portalChange_view (store : Store) (tier : CustomerTier) (change : PortalLineChange)
    (line : QuoteLine) : ((change.apply store tier line).id, (change.apply store tier line).discountPercent)
      = (line.id, line.discountPercent) := by
  unfold PortalLineChange.apply
  dsimp only
  split <;> rfl

theorem changeLine_view {store : Store} {tier : CustomerTier} {changes : List PortalLineChange}
    (h : changes.foldlM (changeLine store tier) lines = .ok lines') :
    lines'.map (fun line => (line.id, line.discountPercent))
      = lines.map fun line => (line.id, line.discountPercent) := by
  refine except_foldlM_invariant (fun after => after.map (fun line => (line.id, line.discountPercent))
    = lines.map fun line => (line.id, line.discountPercent)) changes ?_ lines lines' rfl h
  intro change _ before after hbefore hstep
  unfold changeLine at hstep
  split at hstep
  · cases hstep
  · obtain rfl := Except.ok.inj hstep
    exact (editLine_view (portalChange_view store tier change) _ _).trans hbefore

/-- A customer's quantities leave everything else of the lines alone. -/
theorem requestedQuantities_view {β : Type} {g : QuoteLine → β}
    (hg : ∀ (line : QuoteLine) quantity, g { line with quantity } = g line) (lines : List QuoteLine)
    (input : NegotiationInput) (role : Option String) :
    (requestedQuantities lines input role).map g = lines.map g := by
  unfold requestedQuantities
  split
  · refine List.foldlRecOn (motive := fun (after : List QuoteLine) => after.map g = lines.map g)
      input.requestedLines setRequestedQuantity rfl fun after hafter item _ => ?_
    rw [← hafter]
    unfold setRequestedQuantity
    split
    · rfl
    · rfl
    · exact editLine_view (fun line => hg line _) _ _
  · rfl

/-- Accepted changes restate quantities and discounts and nothing else. -/
theorem acceptRequested_view {β : Type} {g : QuoteLine → β}
    (hg : ∀ (line : QuoteLine) quantity discountPercent,
      g { line with quantity, discountPercent } = g line)
    {env : Env} {a : QuoteAggregate} {actor : Actor} {item : NegotiationRequestedLine} {w w' : World}
    (h : acceptRequested env a actor lines item w = .ok lines' w') : lines'.map g = lines.map g := by
  have hquantity (lines : List QuoteLine) : (setRequestedQuantity lines item).map g = lines.map g := by
    unfold setRequestedQuantity
    split
    · rfl
    · rfl
    · exact editLine_view (fun line => hg line _ line.discountPercent) _ _
  rcases acceptRequested_eq_ok h with ⟨-, rfl⟩ | ⟨-, ⟨-, rfl⟩ | ⟨-, lineId, discountPercent, rfl⟩⟩
  · rfl
  · exact hquantity lines
  · exact (editLine_view (fun line => hg line line.quantity discountPercent) _ _).trans (hquantity lines)

theorem acceptAll_view {β : Type} {g : QuoteLine → β}
    (hg : ∀ (line : QuoteLine) quantity discountPercent,
      g { line with quantity, discountPercent } = g line)
    {env : Env} {a : QuoteAggregate} {actor : Actor} {items : List NegotiationRequestedLine}
    {w w' : World} (h : items.foldlM (acceptRequested env a actor) lines w = .ok lines' w') :
    lines'.map g = lines.map g := by
  refine foldlM_invariant (fun after (_ : World) => after.map g = lines.map g) items ?_ lines w lines'
    w' rfl h
  intro item _ before s after s' hbefore hstep
  exact (acceptRequested_view hg hstep).trans hbefore

/-- A new price comes with a product and its cost at most. -/
theorem reprice_eq_ok {input : LineUpdate} {quoteId : Id} {rulePrice : Num} {line line' : QuoteLine}
    {w w' : World} (h : input.reprice quoteId rulePrice line w = .ok line' w') :
    ∃ productId listPrice unitCost, line' = { line with productId, listPrice, unitCost } := by
  unfold LineUpdate.reprice at h
  cases hproductId : input.productId.filter fun productId => productId ≠ line.productId with
  | some productId =>
      simp only [hproductId, bind_eq_ok, pure_eq_ok] at h
      obtain ⟨replacement, _, -, rfl, -⟩ := h
      exact ⟨_, _, _, rfl⟩
  | none =>
      cases hunitPrice : input.unitPrice with
      | some unitPrice =>
          simp only [hproductId, hunitPrice, pure_eq_ok] at h
          obtain ⟨rfl, -⟩ := h
          exact ⟨line.productId, unitPrice, line.unitCost, rfl⟩
      | none =>
          simp only [hproductId, hunitPrice, pure_eq_ok] at h
          obtain ⟨rfl, -⟩ := h
          split
          · exact ⟨line.productId, rulePrice, line.unitCost, rfl⟩
          · exact ⟨line.productId, line.listPrice, line.unitCost, rfl⟩

/-- An edit of the lines drops some, or adds one with an id from the supply. -/
theorem Relines.ids {env : Env} {w w' : World} {a : QuoteAggregate} {op : QuoteEdit}
    (h : Relines env w w' a op lines) :
    (lines.map (·.id)).Sublist (a.lines.map (·.id)) ∨
      ∃ line, lines = a.lines ++ [line] ∧ line.id = w.nextUuid ∧ w.nextUuid < w'.nextUuid := by
  cases h with
  | @addLine quoteId input version actor line w₁ hline hid =>
      obtain ⟨product, -, rfl, rfl⟩ := toLine_eq_ok hline
      exact .inr ⟨_, rfl, rfl, hid⟩
  | @updateLine quoteId lineId input version actor found line rulePrice w₁ hfound hrule hline =>
      have hfoundId : found.id = lineId := Table.key_of_lookup hfound
      obtain ⟨productId, listPrice, unitCost, hrepriced⟩ := reprice_eq_ok hline
      have hid : line.id = lineId := by
        rw [hrepriced]
        exact hfoundId
      have hids : (editLine lineId (fun _ => line) a.lines).map (·.id) = a.lines.map (·.id) := by
        refine Table.map_modifyFirst_of (fun other hother => ?_) a.lines
        rw [hid, of_decide_eq_true hother]
      left
      rw [hids]
  | removeLine => exact .inl (List.filter_sublist.map _)
  | @applyRecommendation quoteId relationId actor version line w₁ relation hrelation hline hid =>
      obtain ⟨product, -, rfl, rfl⟩ := toLine_eq_ok hline
      exact .inr ⟨_, rfl, rfl, hid⟩
  | reviseAsManager hrevised =>
      left
      rw [reviseLine_ids hrevised]
  | createNegotiationRequest =>
      left
      rw [requestedQuantities_view (fun line quantity => rfl)]
  | createPortalNegotiation =>
      left
      rw [requestedQuantities_view (fun line quantity => rfl)]
  | applyPortalChange hlines =>
      have hids := congrArg (List.map Prod.fst) (changeLine_view hlines)
      rw [List.map_map, List.map_map] at hids
      left
      rw [show lines.map (·.id) = a.lines.map (·.id) from hids]
  | respondToNegotiation hrequest hlines =>
      left
      rw [acceptAll_view (fun line quantity discountPercent => rfl) hlines]

end LineIds

/-- The lines have ids of their own, all taken from the supply. -/
structure LinesIdentified (n : ℕ) (q : QuoteAggregate) : Prop where
  distinct : (q.lines.map (·.id)).Nodup
  used : ∀ line ∈ q.lines, line.id < n

theorem LinesIdentified.of_core {n : ℕ} {a b : QuoteAggregate} (h : a.core = b.core)
    (ha : LinesIdentified n a) : LinesIdentified n b := by
  have hlines : a.lines = b.lines := eq_of_core (·.lines) h (fun _ => rfl)
  refine ⟨?_, ?_⟩
  · rw [← hlines]
    exact ha.distinct
  · rw [← hlines]
    exact ha.used

theorem LinesIdentified.relines {env : Env} {w w' : World} {a b : QuoteAggregate} {op : QuoteEdit}
    {lines : List QuoteLine} (ha : LinesIdentified w.nextUuid a) (hnext : w.nextUuid ≤ w'.nextUuid)
    (hb : b.lines = lines) (h : Relines env w w' a op lines) : LinesIdentified w'.nextUuid b := by
  rcases h.ids with hids | ⟨line, hadded, hid, hlast⟩
  · refine ⟨?_, fun line hline => ?_⟩
    · rw [hb]
      exact hids.nodup ha.distinct
    · rw [hb] at hline
      obtain ⟨old, hold, heq⟩ := List.mem_map.mp (hids.subset (List.mem_map_of_mem hline))
      have hused := ha.used old hold
      rw [show old.id = line.id from heq] at hused
      exact hused.trans_le hnext
  · rw [hadded] at hb
    refine ⟨?_, fun other hother => ?_⟩
    · rw [hb, List.map_append, List.nodup_append]
      refine ⟨ha.distinct, List.nodup_singleton _, ?_⟩
      intro id hmem id' hmem' heq
      obtain ⟨old, hold, rfl⟩ := List.mem_map.mp hmem
      have hused := ha.used old hold
      rw [show old.id = id' from heq, show id' = line.id from List.mem_singleton.mp hmem', hid]
        at hused
      exact lt_irrefl _ hused
    · rw [hb] at hother
      rcases List.mem_append.mp hother with hother | hother
      · exact (ha.used other hother).trans_le hnext
      · rw [List.mem_singleton.mp hother, hid]
        exact hlast

theorem linesIdentified_invariant : QuoteInvariant LinesIdentified where
  core h ha := ha.of_core h
  mono hle hq := ⟨hq.distinct, fun line hline => (hq.used line hline).trans_le hle⟩
  draft hdraft := by
    refine ⟨hdraft.distinct, fun line hline => ?_⟩
    obtain ⟨id, product, input, -, -, rfl, -, hhigh⟩ := hdraft.lines line hline
    exact hhigh
  change {env w w₁ a b op} hframe hchange ha := by
    rcases hchange.lines with hsame | ⟨lines, hb, hlines, -⟩
    · refine ⟨?_, ?_⟩
      · rw [hsame]
        exact ha.distinct
      · rw [hsame]
        exact fun line hline => (ha.used line hline).trans_le hframe.nextUuid
    · exact ha.relines hframe.nextUuid hb hlines

/-! ## Products -/

/-- Every line of a stored quote names a product of the catalog. -/
def ProductsKnown (w : World) : Prop :=
  ∀ q ∈ w.store.quotes, ∀ line ∈ q.lines, (w.store.getProduct line.productId).isSome = true

theorem World.Fresh.productsKnown {w : World} (h : w.Fresh) : ProductsKnown w := by
  intro q hq
  rw [h.quotes] at hq
  cases hq

theorem known_of_pairs {store : Store} {lines : List QuoteLine} {pairs : List (QuoteLine × Product)}
    (h : pairProducts store lines = .ok pairs) {line : QuoteLine} (hline : line ∈ lines) :
    (store.getProduct line.productId).isSome = true := by
  rw [← pairProducts_fst h] at hline
  obtain ⟨pair, hpair, rfl⟩ := List.mem_map.mp hline
  rw [pairProducts_snd h pair hpair]
  rfl

theorem pairs_of_known {store : Store} : ∀ {lines : List QuoteLine},
    (∀ line ∈ lines, (store.getProduct line.productId).isSome = true) →
      ∃ pairs, pairProducts store lines = .ok pairs
  | [], _ => ⟨[], rfl⟩
  | line :: lines, h => by
      obtain ⟨product, hproduct⟩ := Option.isSome_iff_exists.mp (h line List.mem_cons_self)
      obtain ⟨pairs, hpairs⟩ := pairs_of_known fun line hline => h line (List.mem_cons_of_mem _ hline)
      refine ⟨(line, product) :: pairs, ?_⟩
      simp only [pairProducts, hproduct, hpairs]

theorem after_deleteProduct (id : Id) (actor : Actor) (w : World) :
    after (deleteProduct id actor) w = w ∨
      w.store.countProductQuoteLines id = 0 ∧
        after (deleteProduct id actor) w = { w with store := w.store.deleteProduct id } := by
  simp only [deleteProduct, after_throwIf_bind, after_read_bind]
  split
  · exact .inl rfl
  · split
    · exact .inl rfl
    · split
      · exact .inl rfl
      · rename_i hunused
        exact .inr ⟨Nat.eq_zero_of_not_pos hunused, rfl⟩

/-- A product without quote lines is in no quote. -/
theorem ne_of_unused {store : Store} {id : Id} (h : store.countProductQuoteLines id = 0)
    {q : QuoteAggregate} (hq : q ∈ store.quotes) {line : QuoteLine} (hline : line ∈ q.lines) :
    line.productId ≠ id := by
  unfold Store.countProductQuoteLines at h
  have hcount := (List.sum_eq_zero_iff_forall_eq_nat.mp h) _ (List.mem_map_of_mem hq)
  have hnone := List.countP_eq_zero.mp hcount line hline
  simpa using hnone

theorem getProduct_deleteProduct {id other : Id} (h : id ≠ other) (store : Store) :
    (store.deleteProduct id).getProduct other = store.getProduct other := by
  unfold Store.deleteProduct
  split
  · rfl
  · show Table.lookup Product.id other (store.products.eraseP fun item => decide (Product.id item = id))
      = Table.lookup Product.id other store.products
    exact Table.lookup_eraseP h store.products

/-- What a product lookup finds, a catalog edit leaves to be found, a deletion of it aside. -/
def ProductsKept (w w' : World) : Prop :=
  ∀ id, (w.store.getProduct id).isSome = true → (w'.store.getProduct id).isSome = true

instance : Std.Refl ProductsKept := ⟨fun _ _ h => h⟩

instance : IsTrans World ProductsKept := ⟨fun _ _ _ h₁ h₂ id h => h₂ id (h₁ id h)⟩

theorem ProductsKept.of_products {w w' : World} (h : w'.store.products = w.store.products) :
    ProductsKept w w' := by
  intro id hid
  unfold Store.getProduct at hid ⊢
  rwa [h]

theorem productsKept_catalog (env : Env) {op : CatalogEdit}
    (hop : ∀ id actor, op ≠ .deleteProduct id actor) : Keeps ProductsKept (op.program env) := by
  refine keeps_catalog_of (fun _ _ _ => .of_products rfl) env fun f hf w => ?_
  cases hf with
  | deleteProduct => exact absurd rfl (hop _ _)
  | upsertProduct product =>
      intro id hid
      show (Table.lookup Product.id id (Table.upsert Product.id product w.store.products)).isSome = true
      rw [Table.lookup_upsert]
      split
      · rfl
      · exact hid
  | deleteWarehouse =>
      refine .of_products ?_
      unfold Store.deleteWarehouse
      split <;> rfl
  | _ => exact .of_products rfl

theorem ProductsKnown.serve {w : World} (h : ProductsKnown w) (options : Options)
    (request : Request) : ProductsKnown (serve options w request) := by
  by_cases hcatalog : ∃ op, request.operation = .catalog op
  · obtain ⟨op, hop⟩ := hcatalog
    have hserve : DealFlow360.serve options w request = after (op.program (request.env options)) w := by
      unfold DealFlow360.serve Request.program
      rw [hop]
      rfl
    have hquotes := ((keeps_catalog (request.env options) op).keeps w).quotes
    rw [hserve]
    intro q hq line hline
    rw [hquotes] at hq
    by_cases hdelete : ∃ id actor, op = .deleteProduct id actor
    · obtain ⟨id, actor, rfl⟩ := hdelete
      show ((after (deleteProduct id actor) w).store.getProduct line.productId).isSome = true
      rcases after_deleteProduct id actor w with hworld | ⟨hunused, hworld⟩
      · rw [hworld]
        exact h q hq line hline
      · rw [hworld]
        exact (getProduct_deleteProduct (ne_of_unused hunused hq hline).symm w.store) ▸ h q hq line hline
    · have hkept := (productsKept_catalog (request.env options)
        fun id actor heq => hdelete ⟨id, actor, heq⟩).keeps w
      exact hkept _ (h q hq line hline)
  · have hframe : QuoteFrame w (DealFlow360.serve options w request) :=
      serve_quoteFrame fun op hop => hcatalog ⟨op, hop⟩
    have hproducts (id : Id) :
        (DealFlow360.serve options w request).store.getProduct id = w.store.getProduct id := by
      rw [hframe.store]
      rfl
    intro q' hq' line hline
    rw [hproducts]
    rcases quote_of_serve hq' with ⟨q, hq, hstep⟩ | hcreated
    · cases hstep with
      | untouched => exact h q' hq line hline
      | edited hop hload hloaded hedit hedited hchange hpairs hnext =>
          have hknown := known_of_pairs hpairs hline
          rw [hedited.store] at hknown
          exact hknown
      | assessed hop hloaded hid hpairs => exact known_of_pairs hpairs hline
    · obtain ⟨hop, hquiet, hdraft, hpairs, hnext⟩ := hcreated
      have hknown := known_of_pairs hpairs hline
      rw [hquiet.store] at hknown
      exact hknown

end DealFlow360
