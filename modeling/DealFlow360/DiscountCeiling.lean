import DealFlow360.Negotiations
import DealFlow360.QuoteLines
import Mathlib.Data.Set.Finite.Lemmas
import Mathlib.Data.Set.Finite.List

/-!
# The discount ceiling

Every discount on a stored line was granted: some actor's role allowed it on
top of some loyalty bonus, under the commercial cap. Eight operations write
discounts, and each asks the same guard before it does; the customer's side
writes none. While authorities and governance stand, the bound that a single
grant gives therefore holds for every line of every quote.

`Grantable` is what a single grant may come to, for some actor under the
authorities and the governance of the store. Each edit is taken once
(`discounts_of_edit`, `discounts_of_draft`): the discount of every line of its
result stood before or was granted. `Relines.discounts` is the customer's half.

- `discount_ceiling`: in every run during which authorities and governance
  stand, each discount on a stored line is at least nothing, at most the
  commercial cap, and at most what the strongest role allows with the largest
  loyalty bonus;
- `discount_ceiling_granted`: the bound is met by the seeded roles.
-/

namespace DealFlow360

open Program

/-! ## What a role allows -/

/-- The discount an actor's role allows before loyalty. -/
def roleDiscount (authorities : List RoleAuthority) (actor : Option Actor) : Num :=
  ((matchDiscountAuthority authorities actor).map (·.maxDiscountPercent)).getD 0

/-- What loyalty can add: the bonus of a platinum customer, where bonuses stack. -/
def loyaltyRoom (config : GovernanceConfig) : Num :=
  if config.allowLoyaltyStacking then 10 else 0

theorem mem_of_matchDiscountAuthority {authorities : List RoleAuthority} {actor : Option Actor}
    {authority : RoleAuthority} (h : matchDiscountAuthority authorities actor = some authority) :
    authority ∈ adminAuthority :: authorities := by
  unfold matchDiscountAuthority at h
  dsimp only at h
  split at h
  · cases h
  · split at h
    · rename_i matched hmatched
      obtain rfl := Option.some.inj h
      have hmem := List.mem_of_mem_filter (mem_sortBy.mp (List.mem_of_mem_head? hmatched))
      exact List.mem_cons_of_mem _ hmem
    · split at h
      · obtain rfl := Option.some.inj h
        cases hfinance : authorities.find? fun item => item.roleKey = "finance" with
        | none => exact List.mem_cons_self
        | some found => exact List.mem_cons_of_mem _ (List.mem_of_find?_eq_some hfinance)
      · cases h

theorem roleDiscount_mem (authorities : List RoleAuthority) (actor : Option Actor) :
    roleDiscount authorities actor ∈
      0 :: (adminAuthority :: authorities).map (·.maxDiscountPercent) := by
  unfold roleDiscount
  cases hmatch : matchDiscountAuthority authorities actor with
  | none => exact List.mem_cons_self
  | some authority =>
      exact List.mem_cons_of_mem _ (List.mem_map_of_mem (mem_of_matchDiscountAuthority hmatch))

/-- Some role allows the most. -/
theorem exists_largestDiscount (authorities : List RoleAuthority) :
    ∃ most, IsGreatest (Set.range (roleDiscount authorities)) most := by
  have hfinite : (Set.range (roleDiscount authorities)).Finite := by
    refine Set.Finite.subset
      (List.finite_toSet (0 :: (adminAuthority :: authorities).map (·.maxDiscountPercent))) ?_
    rintro _ ⟨actor, rfl⟩
    exact roleDiscount_mem authorities actor
  obtain ⟨most, hmem, hmost⟩ := Set.exists_max_image _ id hfinite ⟨_, none, rfl⟩
  exact ⟨most, hmem, fun other hother => hmost other hother⟩

theorem loyaltyBonus_le (tier : LoyaltyTier) (config : GovernanceConfig) :
    (if config.allowLoyaltyStacking = false then 0 else loyaltyBonusPercent tier.text)
      ≤ loyaltyRoom config := by
  unfold loyaltyRoom
  cases config.allowLoyaltyStacking with
  | false => exact le_rfl
  | true => cases tier <;> decide

/-! ## Grants -/

/-- Some actor may grant the discount. -/
def Grantable (authorities : List RoleAuthority) (config : GovernanceConfig) (discount : Num) : Prop :=
  ∃ actor tier, discount ≤ (actorDiscountCeiling authorities actor tier config).ceiling
    + authorityTolerance

/-- A discount as it may stand on a line. -/
structure Granted (authorities : List RoleAuthority) (config : GovernanceConfig) (discount : Num) :
    Prop where
  nonneg : 0 ≤ discount
  grantable : Grantable authorities config discount

variable {authorities : List RoleAuthority} {config : GovernanceConfig} {discount most : Num}

theorem Grantable.le_cap (h : Grantable authorities config discount) :
    discount ≤ config.maxCommercialDiscountPercent + authorityTolerance := by
  obtain ⟨actor, tier, hle⟩ := h
  refine hle.trans (add_le_add_left ?_ _)
  exact min_le_left _ _

theorem Grantable.le_role (h : Grantable authorities config discount)
    (hmost : IsGreatest (Set.range (roleDiscount authorities)) most) :
    discount ≤ most + loyaltyRoom config + authorityTolerance := by
  obtain ⟨actor, tier, hle⟩ := h
  have hrole : roleDiscount authorities actor ≤ most := hmost.2 ⟨actor, rfl⟩
  have hbonus := loyaltyBonus_le tier config
  have hceiling : (actorDiscountCeiling authorities actor tier config).ceiling
      ≤ roleDiscount authorities actor
        + (if config.allowLoyaltyStacking = false then 0 else loyaltyBonusPercent tier.text) :=
    min_le_right _ _
  linarith

theorem forM_eq_ok {α : Type} {f : α → Except DomainError Unit} :
    ∀ {l : List α} {u : Unit}, l.forM f = .ok u → ∀ a ∈ l, f a = .ok ⟨⟩
  | [], _, _, a, ha => absurd ha List.not_mem_nil
  | head :: rest, u, h, a, ha => by
      rw [List.forM_eq_forM, List.forM_cons] at h
      obtain ⟨_, hhead, hrest⟩ := except_bind_eq_ok.mp h
      rcases List.mem_cons.mp ha with rfl | ha
      · exact hhead
      · exact forM_eq_ok hrest a ha

/-- A permitted write may grant each of its discounts. -/
theorem grantable_of_write {options : Options} {a : QuoteAggregate} {actor : Actor}
    {discounts : List Num} {overrides : List PriceOverride} {w w' : World} {u : PUnit}
    (h : assertCommercialWrite options a actor discounts overrides w = .ok u w') :
    ∀ d ∈ discounts, Grantable w.store.roleAuthorities (options.governanceOf w.store) d := by
  unfold assertCommercialWrite at h
  simp only [bind_eq_ok, throwIf_eq_ok, read_eq_ok, lift_eq_ok] at h
  obtain ⟨_, _, ⟨-, rfl⟩, _, _, ⟨-, rfl⟩, _, w₁, hmanager, _, _, ⟨rfl, rfl⟩, _, _, ⟨hdiscounts, -⟩, -⟩ := h
  obtain rfl := readOnly_of_ok hmanager
  intro d hd
  exact ⟨_, _, discount_le_of_assert (forM_eq_ok hdiscounts d hd)⟩

/-! ## What each edit writes -/

/-- The discounts an edit states. -/
def QuoteEdit.discounts : QuoteEdit → List Num
  | addLine _ input _ _ => [input.discountPercent]
  | updateLine _ _ input _ _ => input.discountPercent.toList
  | reviseAsManager _ changes _ _ => changes.filterMap (·.discountPercent)
  | op => op.askedDiscounts

/-- No stored request asks for a negative discount. -/
def AskedNonneg (store : Store) : Prop :=
  ∀ request ∈ store.negotiations, ∀ item ∈ request.requestedLines, ∀ d ∈ item.discountPercent, 0 ≤ d

section Edits

variable {env : Env} {w w' : World} {a b : QuoteAggregate}

theorem addLine_grantable {quoteId : Id} {input : LineInput} {version : ℕ} {actor : Actor}
    (h : (addLine env quoteId input version actor).edit a w = .ok (some b) w') :
    Grantable w.store.roleAuthorities (env.options.governanceOf w.store) input.discountPercent := by
  simp only [addLine, Mutation.saving, map_eq_ok, bind_eq_ok, assertExpectedVersion_eq_ok] at h
  obtain ⟨_, ⟨_, _, ⟨-, rfl⟩, _, _, hguard, -⟩, -⟩ := h
  exact grantable_of_write hguard _ List.mem_cons_self

theorem applyRecommendation_grantable {quoteId relationId : Id} {version : ℕ} {actor : Actor}
    (h : (applyRecommendation env quoteId relationId actor version).edit a w = .ok (some b) w') :
    Grantable w.store.roleAuthorities (env.options.governanceOf w.store) 0 := by
  simp only [applyRecommendation, Mutation.saving, map_eq_ok, bind_eq_ok,
    assertExpectedVersion_eq_ok] at h
  obtain ⟨_, ⟨_, _, ⟨-, rfl⟩, _, _, hguard, -⟩, -⟩ := h
  exact grantable_of_write hguard _ List.mem_cons_self

theorem updateLine_grantable {quoteId lineId : Id} {input : LineUpdate} {version : ℕ} {actor : Actor}
    {found : QuoteLine} (hfound : findLine a.lines lineId = some found)
    (h : (updateLine env quoteId lineId input version actor).edit a w = .ok (some b) w') :
    Grantable w.store.roleAuthorities (env.options.governanceOf w.store)
      (input.restate found).discountPercent := by
  simp only [updateLine, Mutation.saving, map_eq_ok, bind_eq_ok, assertExpectedVersion_eq_ok,
    orThrow_eq_ok, throwIf_eq_ok, read_eq_ok] at h
  obtain ⟨_, ⟨_, _, ⟨-, rfl⟩, other, _, ⟨hother, rfl⟩, _, _, ⟨-, rfl⟩, _, _, ⟨rfl, rfl⟩, line, w₁,
    hline, _, _, hguard, -⟩, -⟩ := h
  obtain rfl := Option.some.inj (hother.symm.trans hfound)
  have hframe : QuietFrame w w₁ := Keeps.of_ok hline
  have hgrant := grantable_of_write hguard _ List.mem_cons_self
  obtain ⟨productId, listPrice, unitCost, rfl⟩ := reprice_eq_ok hline
  rw [hframe.store] at hgrant
  exact hgrant

theorem reviseAsManager_grantable {quoteId : Id} {changes : List ManagerChange} {version : ℕ}
    {actor : Actor} {revised : List QuoteLine × List Num}
    (hrevised : changes.foldlM (reviseLine w.store a.customer.tier) (a.lines, []) = .ok revised)
    (h : (reviseAsManager env quoteId changes version actor).edit a w = .ok (some b) w') :
    ∀ d ∈ revised.2, Grantable w.store.roleAuthorities (env.options.governanceOf w.store) d := by
  simp only [reviseAsManager, Mutation.saving, map_eq_ok, bind_eq_ok, assertExpectedVersion_eq_ok,
    throwIf_eq_ok, read_eq_ok, lift_eq_ok] at h
  obtain ⟨_, ⟨_, _, ⟨-, rfl⟩, _, _, ⟨-, rfl⟩, _, _, ⟨rfl, rfl⟩, other, _, ⟨hother, rfl⟩, _, _, hguard,
    -⟩, -⟩ := h
  obtain rfl := Except.ok.inj (hother.symm.trans hrevised)
  exact grantable_of_write hguard

theorem managerChange_discount (store : Store) (tier : CustomerTier) (change : ManagerChange)
    (line : QuoteLine) :
    (change.apply store tier line).discountPercent
      = change.discountPercent.getD line.discountPercent := by
  unfold ManagerChange.apply
  dsimp only
  split
  · rfl
  · split <;> rfl

/-- A revised line keeps its discount or has one that the revision put up for the check, and that the
change states. -/
theorem reviseLine_discounts {store : Store} {tier : CustomerTier} {changes : List ManagerChange}
    {lines : List QuoteLine} {revised : List QuoteLine × List Num}
    (h : changes.foldlM (reviseLine store tier) (lines, []) = .ok revised) :
    ∀ line ∈ revised.1, (∃ old ∈ lines, line.discountPercent = old.discountPercent) ∨
      line.discountPercent ∈ revised.2 ∧
        line.discountPercent ∈ changes.filterMap (·.discountPercent) := by
  refine except_foldlM_invariant (fun revised => ∀ line ∈ revised.1,
    (∃ old ∈ lines, line.discountPercent = old.discountPercent) ∨
      line.discountPercent ∈ revised.2 ∧
        line.discountPercent ∈ changes.filterMap (·.discountPercent)) changes ?_
    (lines, []) revised (fun line hline => .inl ⟨line, hline, rfl⟩) h
  intro change hchange before next hbefore hstep line hline
  unfold reviseLine at hstep
  split at hstep
  · cases hstep
  · rename_i found hfound
    obtain rfl := Except.ok.inj hstep
    have hkept (old : QuoteLine) (hold : old ∈ before.1)
        (hsame : line.discountPercent = old.discountPercent) :
        (∃ old ∈ lines, line.discountPercent = old.discountPercent) ∨
          line.discountPercent ∈ before.2 ++ [change.discountPercent.getD found.discountPercent] ∧
            line.discountPercent ∈ changes.filterMap (·.discountPercent) := by
      rcases hbefore old hold with hold | ⟨hchecked, hstated⟩
      · rw [hsame]
        exact .inl hold
      · rw [hsame]
        exact .inr ⟨List.mem_append_left _ hchecked, hstated⟩
    rcases Table.mem_modifyFirst hline with hline | ⟨old, hold, -, rfl⟩
    · exact hkept line hline rfl
    · rw [managerChange_discount] at hkept ⊢
      cases hdiscount : change.discountPercent with
      | none =>
          rw [hdiscount] at hkept
          exact hkept old hold rfl
      | some d =>
          refine .inr ⟨List.mem_append_right _ List.mem_cons_self, ?_⟩
          exact List.mem_filterMap.mpr ⟨change, hchange, hdiscount⟩

/-- An accepted line keeps its discount or has the granted one its request asks for. -/
theorem acceptRequested_discount {actor : Actor} {lines lines' : List QuoteLine}
    {item : NegotiationRequestedLine}
    (h : acceptRequested env a actor lines item w = .ok lines' w') :
    ∀ line ∈ lines', (∃ old ∈ lines, line.discountPercent = old.discountPercent) ∨
      some line.discountPercent = item.discountPercent ∧
        Grantable w.store.roleAuthorities (env.options.governanceOf w.store) line.discountPercent := by
  have hquantity (line : QuoteLine) (hline : line ∈ setRequestedQuantity lines item) :
      ∃ old ∈ lines, line.discountPercent = old.discountPercent := by
    unfold setRequestedQuantity at hline
    split at hline
    · exact ⟨line, hline, rfl⟩
    · exact ⟨line, hline, rfl⟩
    · rcases Table.mem_modifyFirst hline with hline | ⟨old, hold, -, rfl⟩
      · exact ⟨line, hline, rfl⟩
      · exact ⟨old, hold, rfl⟩
  unfold acceptRequested at h
  dsimp only at h
  split at h
  · obtain ⟨rfl, -⟩ := pure_eq_ok.mp h
    exact fun line hline => .inl ⟨line, hline, rfl⟩
  · cases hlineId : item.lineId with
    | none =>
        simp only [hlineId] at h
        obtain ⟨rfl, -⟩ := pure_eq_ok.mp h
        exact fun line hline => .inl (hquantity line hline)
    | some lineId =>
        cases hdiscount : item.discountPercent with
        | none =>
            simp only [hlineId, hdiscount] at h
            obtain ⟨rfl, -⟩ := pure_eq_ok.mp h
            exact fun line hline => .inl (hquantity line hline)
        | some discount =>
            simp only [hlineId, hdiscount, bind_eq_ok, pure_eq_ok] at h
            obtain ⟨_, _, hguard, rfl, -⟩ := h
            intro line hline
            rcases Table.mem_modifyFirst hline with hline | ⟨old, hold, -, rfl⟩
            · exact .inl (hquantity line hline)
            · exact .inr ⟨rfl, grantable_of_write hguard _ List.mem_cons_self⟩

/-- The lines of an edited quote: the discount of each stood before or was granted. -/
theorem discounts_of_edit {op : QuoteEdit}
    (h : (op.mutation env).edit a w = .ok (some b) w') (hvalid : ∀ d ∈ op.discounts, 0 ≤ d)
    (hasked : AskedNonneg w.store)
    (ha : ∀ line ∈ a.lines,
      Granted w.store.roleAuthorities (env.options.governanceOf w.store) line.discountPercent) :
    ∀ line ∈ b.lines,
      Granted w.store.roleAuthorities (env.options.governanceOf w.store) line.discountPercent := by
  have hview {lines : List QuoteLine}
      (hlines : lines.map (·.discountPercent) = a.lines.map (·.discountPercent)) :
      ∀ line ∈ lines, Granted w.store.roleAuthorities (env.options.governanceOf w.store)
        line.discountPercent := by
    intro line hline
    have hmem := List.mem_map_of_mem (f := (·.discountPercent)) hline
    rw [hlines] at hmem
    obtain ⟨old, hold, heq⟩ := List.mem_map.mp hmem
    rw [← show old.discountPercent = line.discountPercent from heq]
    exact ha old hold
  rcases (change_of_edit op h).lines with hsame | ⟨lines, hb, hlines, -⟩
  · rw [hsame]
    exact ha
  · rw [hb]
    cases hlines with
    | addLine hline hid =>
        obtain ⟨product, -, rfl, -⟩ := toLine_eq_ok hline
        intro line hmem
        rcases List.mem_append.mp hmem with hmem | hmem
        · exact ha line hmem
        · obtain rfl := List.mem_singleton.mp hmem
          exact ⟨hvalid _ List.mem_cons_self, addLine_grantable h⟩
    | @updateLine quoteId lineId input version actor found line rulePrice w₁ hfound hprice hline =>
        have hgrant := updateLine_grantable hfound h
        obtain ⟨productId, listPrice, unitCost, rfl⟩ := reprice_eq_ok hline
        intro other hmem
        rcases Table.mem_modifyFirst hmem with hmem | ⟨current, -, -, rfl⟩
        · exact ha other hmem
        · refine ⟨?_, hgrant⟩
          show 0 ≤ input.discountPercent.getD found.discountPercent
          cases hdiscount : input.discountPercent with
          | none => exact (ha found (Table.mem_of_lookup hfound)).nonneg
          | some d => exact hvalid d (Option.mem_toList.mpr hdiscount)
    | removeLine => exact fun line hline => ha line (List.mem_of_mem_filter hline)
    | applyRecommendation hrelation hline hid =>
        obtain ⟨product, -, rfl, -⟩ := toLine_eq_ok hline
        intro line hmem
        rcases List.mem_append.mp hmem with hmem | hmem
        · exact ha line hmem
        · obtain rfl := List.mem_singleton.mp hmem
          exact ⟨le_rfl, applyRecommendation_grantable h⟩
    | reviseAsManager hrevised =>
        intro line hline
        rcases reviseLine_discounts hrevised line hline with ⟨old, hold, heq⟩ | ⟨hchecked, hstated⟩
        · rw [heq]
          exact ha old hold
        · exact ⟨hvalid _ hstated, reviseAsManager_grantable hrevised h _ hchecked⟩
    | createNegotiationRequest => exact hview (requestedQuantities_view (fun _ _ => rfl) _ _ _)
    | createPortalNegotiation => exact hview (requestedQuantities_view (fun _ _ => rfl) _ _ _)
    | applyPortalChange hlines =>
        have hdiscounts := congrArg (List.map Prod.snd) (changeLine_view hlines)
        rw [List.map_map, List.map_map] at hdiscounts
        exact hview hdiscounts
    | respondToNegotiation hrequest hlines =>
        have hmem := mem_of_getNegotiation (findNegotiation_eq_ok hrequest).1
        refine (foldlM_invariant (fun (lines : List QuoteLine) (w₁ : World) => w₁ = w ∧
          ∀ line ∈ lines, Granted w.store.roleAuthorities (env.options.governanceOf w.store)
            line.discountPercent) _ ?_ a.lines w _ _ ⟨rfl, ha⟩ hlines).2
        rintro item hitem lines w₁ lines' w₂ ⟨rfl, hgranted⟩ hstep
        refine ⟨readOnly_of_ok hstep, fun line hline => ?_⟩
        rcases acceptRequested_discount hstep line hline with ⟨old, hold, heq⟩ | ⟨hdiscount, hgrant⟩
        · rw [heq]
          exact hgranted old hold
        · exact ⟨hasked _ hmem item hitem _ hdiscount.symm, hgrant⟩

end Edits

/-- A draft has the discounts of its input, each granted. -/
theorem discounts_of_draft {env : Env} {customerId : Id} {ownerId : Option String}
    {inputs : List LineInput} {actor : Actor} {w w' : World} {b : QuoteAggregate}
    (h : draftQuote env customerId ownerId inputs actor w = .ok b w') :
    ∀ line ∈ b.lines, line.discountPercent ∈ inputs.map (·.discountPercent) ∧
      Grantable w.store.roleAuthorities (env.options.governanceOf w.store) line.discountPercent := by
  intro line hline
  obtain ⟨id, product, input, hinput, -, rfl, -⟩ := (draftQuote_eq_ok h).lines line hline
  have hmem : input.discountPercent ∈ inputs.map (·.discountPercent) := List.mem_map_of_mem hinput
  refine ⟨hmem, ?_⟩
  simp only [draftQuote, bind_eq_ok, read_eq_ok, orThrow_eq_ok, randomUUID_eq_ok] at h
  obtain ⟨_, _, ⟨rfl, rfl⟩, customer, _, ⟨-, rfl⟩, _, _, ⟨rfl, rfl⟩, number, w₂, hnumber, _, _,
    ⟨rfl, rfl⟩, _, w₃, hguard, -⟩ := h
  have hframe : QuietFrame { w with nextUuid := w.nextUuid + 1 } w₂ := Keeps.of_ok hnumber
  have hgrant := grantable_of_write hguard _ hmem
  rw [show ({ w₂ with nextUuid := w₂.nextUuid + 1 } : World).store = w₂.store from rfl,
    hframe.store] at hgrant
  exact hgrant

/-! ## Every run -/

/-- The discounts a request states. -/
def Request.discounts (request : Request) : List Num :=
  match request.operation with
  | .edit op => op.discounts
  | .createQuote _ _ inputs _ => inputs.map (·.discountPercent)
  | _ => []

/-- A request with discounts as the schemas admit them, which leaves authorities and governance as they
are. -/
structure Steady (options : Options) (w : World) (request : Request) : Prop where
  schema : ∀ d ∈ request.discounts, 0 ≤ d ∧ d ≤ 100
  roleAuthorities : (serve options w request).store.roleAuthorities = w.store.roleAuthorities
  governance : (serve options w request).store.governance = w.store.governance

/-- Every discount on a stored line was granted, and none asked for is negative. -/
structure DiscountsGranted (options : Options) (w : World) : Prop where
  lines : ∀ q ∈ w.store.quotes, ∀ line ∈ q.lines,
    Granted w.store.roleAuthorities (options.governanceOf w.store) line.discountPercent
  asked : AskedNonneg w.store

theorem World.Fresh.discountsGranted {w : World} (h : w.Fresh) (options : Options) :
    DiscountsGranted options w where
  lines := by
    rw [h.quotes]
    exact fun q hq => absurd hq List.not_mem_nil
  asked := by
    unfold AskedNonneg
    rw [h.negotiations]
    exact fun request hrequest => absurd hrequest List.not_mem_nil

section Runs

variable {options : Options} {w : World} {request : Request}

theorem AskedNonneg.serve (h : AskedNonneg w.store) (hschema : ∀ d ∈ request.discounts, 0 ≤ d ∧ d ≤ 100) :
    AskedNonneg (serve options w request).store := by
  intro item hitem
  cases negotiationStep_of_serve options w request with
  | kept hkept =>
      rw [hkept.negotiations] at hitem
      exact h item hitem
  | deleted hnext hnegotiations =>
      rw [hnegotiations] at hitem
      exact h item (List.mem_of_mem_filter hitem)
  | @edited op q a hop hload hq hwrite =>
      cases hwrite with
      | none hkept =>
          rw [hkept.negotiations] at hitem
          exact h item hitem
      | opened hproposal hid hnext hquote hstatus hasked hclear hnegotiations =>
          rw [hnegotiations] at hitem
          rcases Table.mem_upsert hitem with rfl | hitem
          · intro line hline d hd
            have hmem : d ∈ request.discounts := by
              unfold Request.discounts
              rw [hop]
              have hd := hasked line hline d hd
              cases op <;> first | exact hd | cases hproposal
            exact (hschema d hmem).1
          · exact h item hitem
      | moved hmem hid hquote hlines hstatus hnext hnegotiations =>
          rw [hnegotiations] at hitem
          rcases Table.mem_upsert hitem with rfl | hitem
          · rw [hlines]
            exact h _ hmem
          · exact h item hitem

theorem DiscountsGranted.serve (h : DiscountsGranted options w) (hsteady : Steady options w request) :
    DiscountsGranted options (serve options w request) := by
  refine ⟨?_, h.asked.serve hsteady.schema⟩
  have hconfig : options.governanceOf (DealFlow360.serve options w request).store
      = options.governanceOf w.store := by
    unfold Options.governanceOf
    rw [hsteady.governance]
  rw [hsteady.roleAuthorities, hconfig]
  intro q hq
  cases effect_of_serve options w request with
  | kept hquotes hnext =>
      rw [hquotes] at hq
      exact h.lines q hq
  | @edited op q₀ a b w₁ pairs hop hload hq₀ hedit hpairs htail hquotes =>
      rw [hquotes] at hq
      rcases Table.mem_upsert hq with rfl | hq
      · refine discounts_of_edit hedit (fun d hd => (hsteady.schema d ?_).1) h.asked ?_
        · rw [Request.discounts, hop]
          exact hd
        · rw [hq₀.lines]
          exact h.lines q₀ hq₀.mem
      · exact h.lines q hq
  | @created customerId ownerId inputs actor b w₁ pairs hop hdraft hpairs htail hquotes =>
      rw [hquotes] at hq
      rcases Table.mem_upsert hq with rfl | hq
      · intro line hline
        obtain ⟨hmem, hgrant⟩ := discounts_of_draft hdraft line hline
        refine ⟨(hsteady.schema _ ?_).1, hgrant⟩
        rw [Request.discounts, hop]
        exact hmem
      · exact h.lines q hq
  | @assessed quoteId q₀ a pairs hop hq₀ hid hpairs htail hquotes =>
      rw [hquotes] at hq
      rcases Table.mem_upsert hq with rfl | hq
      · have hlines := h.lines q₀ hq₀.mem
        rw [← hq₀.lines] at hlines
        exact hlines
      · exact h.lines q hq
  | deleted hop hq₀ hid hunlocked hstatus hworld =>
      rw [hworld] at hq
      exact h.lines q (Table.mem_erase.mp hq).1

/-- The lines of a quote by id and discount. -/
def QuoteAggregate.discounts (q : QuoteAggregate) : List (Id × Num) :=
  q.lines.map fun line => (line.id, line.discountPercent)

/-- The customer's side changes no discount. -/
theorem Relines.discounts {env : Env} {w' : World} {a : QuoteAggregate} {op : QuoteEdit}
    {lines : List QuoteLine} (h : Relines env w w' a op lines)
    (hop : op.isProposal = true ∨ op.isAnswer = true) :
    lines.map (fun line => (line.id, line.discountPercent)) = a.discounts := by
  cases h with
  | createNegotiationRequest => exact requestedQuantities_view (fun _ _ => rfl) _ _ _
  | createPortalNegotiation => exact requestedQuantities_view (fun _ _ => rfl) _ _ _
  | applyPortalChange hlines => exact changeLine_view hlines
  | _ => rcases hop with hop | hop <;> cases hop

theorem QuoteStep.discounts {q q' : QuoteAggregate} {op : QuoteEdit}
    (h : QuoteStep options w request q q') (hop : request.operation = .edit op)
    (hcustomer : op.isProposal = true ∨ op.isAnswer = true) : q'.discounts = q.discounts := by
  cases h with
  | untouched => rfl
  | assessed hassess hq hid hpairs =>
      rw [hassess] at hop
      cases hop
  | @edited other a b w₁ pairs hother hload hq hedit hframe hchange hpairs hnext =>
      obtain rfl : other = op := by
        rw [hother] at hop
        exact Operation.edit.inj hop
      have hsame : a.discounts = q.discounts := by
        unfold QuoteAggregate.discounts
        rw [hq.lines]
      rw [← hsame]
      show b.lines.map (fun line => (line.id, line.discountPercent)) = a.discounts
      rcases hchange.lines with hlines | ⟨lines, hlines, hrelines, -⟩
      · rw [hlines]
        rfl
      · rw [hlines]
        exact hrelines.discounts hcustomer

end Runs

/-- While authorities and governance stand, every discount on a stored line is at least nothing, and at
most the commercial cap and what the strongest role allows with all the loyalty there is; and what the
customer's side does leaves the discounts of every quote alone. -/
theorem discount_ceiling (options : Options) (w₀ : World) (hfresh : w₀.Fresh)
    (requests : List Request) :
    (Machine.Meets (serve options) (Steady options) w₀ requests →
      let w := serveAll options w₀ requests
      let config := options.governanceOf w.store
      ∃ most, IsGreatest (Set.range (roleDiscount w.store.roleAuthorities)) most ∧
        ∀ q ∈ w.store.quotes, ∀ line ∈ q.lines,
          0 ≤ line.discountPercent ∧
          line.discountPercent ≤ config.maxCommercialDiscountPercent + authorityTolerance ∧
          line.discountPercent ≤ most + loyaltyRoom config + authorityTolerance) ∧
    ∀ first request rest op, requests = first ++ request :: rest → request.operation = .edit op →
      op.isProposal = true ∨ op.isAnswer = true →
      let w := serveAll options w₀ first
      ∀ q ∈ w.store.quotes, ∀ q' ∈ (serve options w request).store.quotes, q'.id = q.id →
        q'.discounts = q.discounts := by
  constructor
  · intro hmeets w config
    have hgranted : DiscountsGranted options w :=
      Machine.invariant_of_meets (fun _ _ h hsteady => h.serve hsteady)
        (hfresh.discountsGranted options) hmeets
    obtain ⟨most, hmost⟩ := exists_largestDiscount w.store.roleAuthorities
    refine ⟨most, hmost, fun q hq line hline => ?_⟩
    have hline := hgranted.lines q hq line hline
    exact ⟨hline.nonneg, hline.grantable.le_cap, hline.grantable.le_role hmost⟩
  · intro first request rest op _ hop hcustomer w q hq q' hq' hid
    have hindexed : w.Indexed := hfresh.indexed.serveAll options first
    exact (step_of_same_id hindexed hq hq' hid).discounts hop hcustomer

/-- A deal an administrator gives fifteen percent on. -/
def discountedDeal : List Request :=
  [{ operation := .createQuote 1 none [{ productId := 11, quantity := 2, discountPercent := 15 }]
       administrator }]

/-- Fifteen percent is what the strongest of the seeded roles allows. -/
theorem discount_ceiling_granted :
    let w := serveAll plainOptions startWorld discountedDeal
    (∃ q ∈ w.store.quotes, q.lines.map (·.discountPercent) = [15]) ∧
      ∃ most, IsGreatest (Set.range (roleDiscount w.store.roleAuthorities)) most ∧
        ∀ q ∈ w.store.quotes, ∀ line ∈ q.lines,
          line.discountPercent ≤ most + loyaltyRoom defaultGovernance + authorityTolerance := by
  intro w
  have hmeets : Machine.Meets (serve plainOptions) (Steady plainOptions) startWorld discountedDeal :=
    ⟨⟨by decide +kernel, by decide +kernel, by decide +kernel⟩, trivial⟩
  obtain ⟨most, hmost, hlines⟩ :=
    (discount_ceiling plainOptions startWorld startWorld_fresh discountedDeal).1 hmeets
  have hgovernance : plainOptions.governanceOf w.store = defaultGovernance := by decide +kernel
  refine ⟨by decide +kernel, most, hmost, fun q hq line hline => ?_⟩
  rw [← hgovernance]
  exact (hlines q hq line hline).2.2

end DealFlow360
