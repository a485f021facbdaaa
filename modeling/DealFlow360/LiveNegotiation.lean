import DealFlow360.Ownership

/-!
# One live negotiation

Attaching a negotiation asks whether another one of the quote is open; a
discount asked for in the portal opens one without asking. Agreeing to a
quotation looks at its latest negotiation only. So a quote has one open
negotiation, and none that waits for an answer after an agreement, exactly as
long as discounts are asked for in the portal while nothing is open and
agreements are sent while nothing but the latest negotiation waits.

The negotiations are looked at as a table: `OneOpen` for a table with one open
negotiation, and one lemma for each way a request writes it. Both halves are
exact for one request (`oneOpen_serve_iff`, `agreesClean_iff`), and the rule
for exact conditions carries them to runs:

- `one_live_iff`: a quote never has two open negotiations and no agreement
  leaves one waiting, if and only if discounts are asked for while nothing is
  open and agreements are sent while nothing but the latest waits.
-/

namespace DealFlow360

open Program

/-- The customer waits for an answer to the request. -/
def NegotiationRequest.Waits (request : NegotiationRequest) : Prop :=
  request.status = .opened ∨ request.status = .inReview ∨ request.status = .sentToManager

/-- No quote has two open negotiations. -/
def OneOpen (store : Store) : Prop :=
  ∀ first ∈ store.negotiations, ∀ second ∈ store.negotiations, first.quoteId = second.quoteId →
    first.status = .opened → second.status = .opened → first = second

/-- An agreement that is served leaves no negotiation of its quote waiting. -/
def AgreesClean (options : Options) (w : World) (request : Request) : Prop :=
  ∀ quoteId version, request.operation = .edit (.agreeToFinal quoteId version) →
    succeeds options w request = true →
      ∀ item ∈ (serve options w request).store.negotiations, item.quoteId = quoteId → ¬item.Waits

/-- The portal takes the changes of the quote `a`. -/
structure TakesChanges (a : QuoteAggregate) (expectedVersion : ℕ) (changes : List PortalLineChange) :
    Prop where
  version : a.quote.version = expectedVersion
  status : a.quote.status = .draft ∨ a.quote.status = .customerNegotiation
  lines : ∀ change ∈ changes, (findLine a.lines change.lineId).isSome = true

/-- Nothing is open where a discount is asked for in the portal, and nothing but the latest negotiation
waits where a quotation is agreed to. -/
structure NegotiatesAlone (w : World) (request : Request) : Prop where
  opens : ∀ token version changes, request.operation = .edit (.applyPortalChange token version changes) →
    changes.filterMap (·.discountPercent) ≠ [] → ∀ a, loadByToken token w = .ok a w →
      TakesChanges a version changes → NoneOpen w.store a.id
  agrees : ∀ quoteId version, request.operation = .edit (.agreeToFinal quoteId version) →
    ∀ a, load quoteId w = .ok a w → ¬NotOpenTo w.store a (.agreeToFinal quoteId version) →
      ∀ item ∈ w.store.negotiations, item.quoteId = quoteId → item.Waits →
        latestNegotiation w.store quoteId = some item

/-- Every other operation may be taken at any time. -/
theorem NegotiatesAlone.of_other {w : World} {request : Request}
    (hportal : ∀ token version changes,
      request.operation ≠ .edit (.applyPortalChange token version changes))
    (hagree : ∀ quoteId version, request.operation ≠ .edit (.agreeToFinal quoteId version)) :
    NegotiatesAlone w request where
  opens token version changes hop := absurd hop (hportal token version changes)
  agrees quoteId version hop := absurd hop (hagree quoteId version)

/-! ## Tables with one open negotiation -/

section Tables

variable {store store' : Store} {next : NegotiationRequest}

theorem OneOpen.of_negotiations (h : OneOpen store)
    (hnegotiations : store'.negotiations = store.negotiations) : OneOpen store' := by
  unfold OneOpen
  rw [hnegotiations]
  exact h

theorem OneOpen.filter {p : NegotiationRequest → Bool} (h : OneOpen store)
    (hnegotiations : store'.negotiations = store.negotiations.filter p) : OneOpen store' := by
  intro first hfirst second hsecond
  rw [hnegotiations] at hfirst hsecond
  exact h first (List.mem_of_mem_filter hfirst) second (List.mem_of_mem_filter hsecond)

/-- A negotiation that is not open takes no place. -/
theorem OneOpen.restated (h : OneOpen store) (hstatus : next.status ≠ .opened)
    (hnegotiations : store'.negotiations = Table.upsert (·.id) next store.negotiations) :
    OneOpen store' := by
  intro first hfirst second hsecond hquote hopen hopen'
  rw [hnegotiations] at hfirst hsecond
  rcases Table.mem_upsert hfirst with rfl | hfirst
  · exact absurd hopen hstatus
  · rcases Table.mem_upsert hsecond with rfl | hsecond
    · exact absurd hopen' hstatus
    · exact h first hfirst second hsecond hquote hopen hopen'

/-- A new open negotiation is the only one if and only if none was open. -/
theorem OneOpen.opened_iff (h : OneOpen store) (hnew : ∀ item ∈ store.negotiations, item.id ≠ next.id)
    (hstatus : next.status = .opened)
    (hnegotiations : store'.negotiations = Table.upsert (·.id) next store.negotiations) :
    OneOpen store' ↔ NoneOpen store next.quoteId := by
  constructor
  · intro hone item hitem hquote hopen
    have hkept : item ∈ store'.negotiations := by
      rw [hnegotiations]
      exact Table.mem_upsert_of_ne hitem (hnew item hitem)
    have hadded : next ∈ store'.negotiations := by
      rw [hnegotiations]
      exact Table.mem_upsert_self ..
    have hsame := hone item hkept next hadded hquote hopen hstatus
    exact hnew item hitem (congrArg (·.id) hsame)
  · intro hnone first hfirst second hsecond hquote hopen hopen'
    rw [hnegotiations] at hfirst hsecond
    rcases Table.mem_upsert hfirst with hfirst | hfirst
    · rcases Table.mem_upsert hsecond with hsecond | hsecond
      · exact hfirst.trans hsecond.symm
      · rw [hfirst] at hquote
        exact absurd hopen' (hnone second hsecond hquote.symm)
    · rcases Table.mem_upsert hsecond with hsecond | hsecond
      · rw [hsecond] at hquote
        exact absurd hopen (hnone first hfirst hquote)
      · exact h first hfirst second hsecond hquote hopen hopen'

end Tables

/-! ## The negotiations after an edit -/

section Edits

variable {options : Options} {env : Env} {w w' : World} {request : Request} {a : QuoteAggregate}
  {op : QuoteEdit}

/-- What finishes a request after its edit writes no negotiation. -/
theorem Outcome.negotiations (h : Outcome env op a w w') :
    w'.store.negotiations = (after ((op.mutation env).edit a) w).store.negotiations := by
  cases h with
  | failed hedit => rw [after_of_error hedit]
  | idle hedit htail =>
      rw [after_of_ok hedit]
      exact htail.negotiationsKept.negotiations
  | unpriced hedit hpairs => rw [after_of_ok hedit]
  | saved hedit hpairs htail =>
      rw [after_of_ok hedit]
      exact htail.negotiationsKept.negotiations

theorem negotiations_of_serve (options : Options) (hop : request.operation = .edit op)
    (hload : (op.mutation (request.env options)).load w = .ok a w) :
    (serve options w request).store.negotiations
      = (after ((op.mutation (request.env options)).edit a) w).store.negotiations := by
  have hserve : serve options w request
      = after ((op.mutation (request.env options)).finish (request.env options) a) w := by
    unfold serve Request.program
    rw [hop]
    exact (after_map _ _ w).trans (after_bind_of_ok hload)
  rw [hserve]
  exact (outcome_of_finish _ op a w).negotiations

/-- A request whose quote is not found writes nothing. -/
theorem serve_of_load_error {e : DomainError} (hop : request.operation = .edit op)
    (hload : (op.mutation (request.env options)).load w = .error e w) :
    serve options w request = w := by
  have hrefused : Refuses (request.program options) w := by
    unfold Request.program
    rw [hop]
    exact .bind (.bind ⟨e, hload⟩)
  obtain ⟨e, herror⟩ := hrefused
  exact after_of_error herror

theorem findLine_isSome {lines : List QuoteLine} {lineId : Id} :
    (findLine lines lineId).isSome = true ↔ lineId ∈ lines.map (·.id) := by
  rw [findLine, Option.isSome_iff_ne_none, ne_eq, Table.lookup_eq_none, List.mem_map]
  push Not
  rfl

theorem changeLine_total {store : Store} {tier : CustomerTier} {changes : List PortalLineChange}
    {lines : List QuoteLine} :
    (∃ lines', changes.foldlM (changeLine store tier) lines = .ok lines') ↔
      ∀ change ∈ changes, (findLine lines change.lineId).isSome = true := by
  induction changes generalizing lines with
  | nil => exact ⟨fun _ _ h => absurd h List.not_mem_nil, fun _ => ⟨lines, rfl⟩⟩
  | cons change changes ih =>
      rw [List.forall_mem_cons, List.foldlM_cons]
      cases hfound : findLine lines change.lineId with
      | none =>
          have hstep : ∃ e, changeLine store tier lines change = .error e := by
            unfold changeLine
            rw [hfound]
            exact ⟨_, rfl⟩
          obtain ⟨e, hstep⟩ := hstep
          rw [hstep]
          constructor
          · rintro ⟨_, h⟩
            cases h
          · rintro ⟨h, -⟩
            cases h
      | some line =>
          have hids : (editLine change.lineId (change.apply store tier) lines).map (·.id)
              = lines.map (·.id) :=
            editLine_view (fun line => congrArg Prod.fst (portalChange_view store tier change line)) _ _
          have hstep : changeLine store tier lines change
              = .ok (editLine change.lineId (change.apply store tier) lines) := by
            unfold changeLine
            rw [hfound]
          rw [hstep]
          refine (@ih (editLine change.lineId (change.apply store tier) lines)).trans ?_
          simp only [findLine_isSome, hids, Option.isSome_some, true_and]

/-- Where the portal takes the changes, the discounts they ask for open a negotiation. -/
theorem applyPortalChange_opens (env : Env) (w : World) (token : Id) {version : ℕ}
    {changes : List PortalLineChange} (htakes : TakesChanges a version changes)
    (hasks : changes.filterMap (·.discountPercent) ≠ []) :
    ∃ next : NegotiationRequest, next.id = w.nextUuid ∧ next.quoteId = a.id ∧ next.status = .opened ∧
      (after ((applyPortalChange env token version changes).edit a) w).store.negotiations
        = Table.upsert (·.id) next w.store.negotiations := by
  have hmove : a.quote.status = .customerNegotiation ∨
      Transition a.quote.status .customerNegotiation := by
    rcases htakes.status with hdraft | hopen
    · rw [hdraft]
      exact .inr (by decide)
    · exact .inl hopen
  have hstatus : ¬(a.quote.status ≠ .customerNegotiation ∧ a.quote.status ≠ .draft) := by
    rintro ⟨hclosed, hdraft⟩
    exact htakes.status.elim hdraft hclosed
  have hlines : ∃ lines, changes.foldlM
      (changeLine w.store (setStatus a .customerNegotiation).customer.tier)
      (setStatus a .customerNegotiation).lines = .ok lines := changeLine_total.mpr htakes.lines
  obtain ⟨lines, hlines⟩ := hlines
  simp only [applyPortalChange, Mutation.saving, after_map]
  rw [after_bind_of_ok (assertExpectedVersion_eq_ok (u := ⟨⟩) |>.mpr ⟨htakes.version, rfl⟩),
    after_bind_of_ok (throwIf_of_not hstatus _ _),
    after_bind_of_ok (moveTo_eq_ok.mpr ⟨hmove, rfl, rfl⟩), after_bind_of_ok (read_eq_ok.mpr ⟨rfl, rfl⟩),
    after_bind_of_ok (lift_eq_ok.mpr ⟨hlines, rfl⟩)]
  unfold requestDiscounts
  cases hasked : changes.filterMap (·.discountPercent) with
  | nil => exact absurd hasked hasks
  | cons first others =>
      dsimp only
      simp only [bind_assoc]
      rw [after_bind_of_ok (randomUUID_eq_ok.mpr ⟨rfl, rfl⟩),
        after_bind_of_ok ((updateStore_eq_ok (u := ⟨⟩)).mpr rfl),
        after_bind_of_ok (pure_eq_ok.mpr ⟨rfl, rfl⟩)]
      refine ⟨_, ?_, ?_, ?_,
        ((inferInstance : Keeps NegotiationsKept (settleEdit env _ _ _)).keeps _).negotiations⟩
      exacts [rfl, rfl, rfl]

/-- Where the portal does not take the changes, nothing is written. -/
theorem applyPortalChange_refuses (env : Env) (w : World) (token : Id) {version : ℕ}
    {changes : List PortalLineChange} (h : ¬TakesChanges a version changes) :
    Refuses ((applyPortalChange env token version changes).edit a) w := by
  refine .map ?_ some
  by_cases hversion : a.quote.version = version
  · refine .after_ok (assertExpectedVersion_eq_ok (u := ⟨⟩) |>.mpr ⟨hversion, rfl⟩) ?_
    by_cases hstatus : a.quote.status = .draft ∨ a.quote.status = .customerNegotiation
    · have hopen : ¬(a.quote.status ≠ .customerNegotiation ∧ a.quote.status ≠ .draft) := by
        rintro ⟨hclosed, hdraft⟩
        exact hstatus.elim hdraft hclosed
      have hmove : a.quote.status = .customerNegotiation ∨
          Transition a.quote.status .customerNegotiation := by
        rcases hstatus with hdraft | hnegotiated
        · rw [hdraft]
          exact .inr (by decide)
        · exact .inl hnegotiated
      refine .after_ok (throwIf_of_not hopen _ _) ?_
      refine .after_ok (moveTo_eq_ok.mpr ⟨hmove, rfl, rfl⟩) ?_
      refine .after_ok (read_eq_ok.mpr ⟨rfl, rfl⟩) (.bind ?_)
      cases hlines : changes.foldlM
          (changeLine w.store (setStatus a .customerNegotiation).customer.tier)
          (setStatus a .customerNegotiation).lines with
      | error e => exact ⟨e, rfl⟩
      | ok lines =>
          have hfound := changeLine_total.mp ⟨lines, hlines⟩
          exact absurd ⟨hversion, hstatus, hfound⟩ h
    · refine .bind (.throwIf ?_ _ w)
      rw [not_or] at hstatus
      exact ⟨hstatus.2, hstatus.1⟩
  · exact .bind (.throwIf hversion _ w)

/-- An agreement that is admitted marks the latest negotiation, if there is one. -/
theorem agreeToFinal_negotiations {quoteId : Id} {version : ℕ}
    (h : ¬NotOpenTo w.store a (.agreeToFinal quoteId version)) :
    (after ((agreeToFinal env quoteId version).edit a) w).store.negotiations
      = match latestNegotiation w.store quoteId with
        | none => w.store.negotiations
        | some latest =>
            Table.upsert (·.id) { latest with status := .agreed, updatedAt := env.now }
              w.store.negotiations := by
  simp only [NotOpenTo, not_or, not_not] at h
  obtain ⟨hversion, hstatus, hlatest⟩ := h
  simp only [agreeToFinal, Mutation.saving, after_map]
  rw [after_bind_of_ok (assertExpectedVersion_eq_ok (u := ⟨⟩) |>.mpr ⟨hversion, rfl⟩),
    after_bind_of_ok (throwIf_of_not hstatus _ _), after_bind_of_ok (read_eq_ok.mpr ⟨rfl, rfl⟩),
    after_bind_of_ok (throwIf_of_not (fun hany => hlatest (any_live_iff.mp hany)) _ _)]
  cases latestNegotiation w.store quoteId with
  | none => rfl
  | some latest => rfl

end Edits

/-! ## One request -/

section Step

variable {options : Options} {w : World} {request : Request}

/-- A request that asks for no discount in the portal opens nothing beside an open negotiation. -/
theorem NegotiationStep.oneOpen {w' : World} (h : NegotiationStep options w w' request)
    (hindexed : NegotiationsIndexed w) (hone : OneOpen w.store)
    (hasks : ∀ token version changes,
      request.operation = .edit (.applyPortalChange token version changes) →
        changes.filterMap (·.discountPercent) = []) : OneOpen w'.store := by
  cases h with
  | kept hkept => exact hone.of_negotiations hkept.negotiations
  | deleted hnext hnegotiations => exact hone.filter hnegotiations
  | edited hop hload hq hwrite =>
      cases hwrite with
      | none hkept => exact hone.of_negotiations hkept.negotiations
      | moved hmem hid hquote hlines hstatus hnext hnegotiations =>
          exact hone.restated hstatus hnegotiations
      | opened hproposal hid hnext hquote hstatus hasked hclear hnegotiations =>
          rcases hclear with hnone | ⟨⟨token, version, changes, rfl⟩, hdiscounts⟩
          · refine (hone.opened_iff (fun item hitem => ?_) hstatus hnegotiations).mpr (hquote ▸ hnone)
            rw [hid]
            exact Nat.ne_of_lt (hindexed.fresh item hitem)
          · exact absurd (hasks token version changes hop) hdiscounts

/-- After a request no quote has two open negotiations if and only if it asked for no discount beside
an open one. -/
theorem oneOpen_serve_iff (options : Options) (hindexed : NegotiationsIndexed w)
    (hone : OneOpen w.store) :
    OneOpen (serve options w request).store ↔
      ∀ token version changes, request.operation = .edit (.applyPortalChange token version changes) →
        changes.filterMap (·.discountPercent) ≠ [] → ∀ a, loadByToken token w = .ok a w →
          TakesChanges a version changes → NoneOpen w.store a.id := by
  constructor
  · intro hafter token version changes hop hasks a hload htakes
    obtain ⟨next, hid, hquote, hstatus, hopens⟩ :=
      applyPortalChange_opens (request.env options) w token htakes hasks
    have hnegotiations := (negotiations_of_serve options hop hload).trans hopens
    rw [← hquote]
    refine (hone.opened_iff (fun item hitem => ?_) hstatus hnegotiations).mp hafter
    rw [hid]
    exact Nat.ne_of_lt (hindexed.fresh item hitem)
  · intro hcondition
    by_cases hasks : ∀ token version changes,
        request.operation = .edit (.applyPortalChange token version changes) →
          changes.filterMap (·.discountPercent) = []
    · exact (negotiationStep_of_serve options w request).oneOpen hindexed hone hasks
    · push Not at hasks
      obtain ⟨token, version, changes, hop, hasks⟩ := hasks
      cases hload : loadByToken token w with
      | error e w₁ =>
          obtain rfl : w = w₁ := Keeps.of_error hload
          rw [serve_of_load_error hop hload]
          exact hone
      | ok a w₁ =>
          obtain rfl : w = w₁ := Keeps.of_ok hload
          by_cases htakes : TakesChanges a version changes
          · obtain ⟨next, hid, hquote, hstatus, hopens⟩ :=
              applyPortalChange_opens (request.env options) w token htakes hasks
            have hnegotiations := (negotiations_of_serve options hop hload).trans hopens
            have hnone := hcondition token version changes hop hasks a hload htakes
            refine (hone.opened_iff (fun item hitem => ?_) hstatus hnegotiations).mpr (hquote ▸ hnone)
            rw [hid]
            exact Nat.ne_of_lt (hindexed.fresh item hitem)
          · obtain ⟨e, hrefused⟩ := applyPortalChange_refuses (request.env options) w token htakes
            refine hone.of_negotiations ((negotiations_of_serve options hop hload).trans ?_)
            exact congrArg (·.store.negotiations) (after_of_error hrefused)

/-- The latest negotiation of a quote and another one of it. -/
theorem waits_elsewhere {store : Store} {quoteId : Id} {latest item : NegotiationRequest}
    (hd : Table.Distinct NegotiationRequest.id store.negotiations)
    (hlatest : latestNegotiation store quoteId = some latest) (hitem : item ∈ store.negotiations)
    (hother : latestNegotiation store quoteId ≠ some item) : item.id ≠ latest.id := by
  intro hid
  have hfound := Table.lookup_of_mem hd hitem
  rw [hid, Table.lookup_of_mem hd (mem_of_latestNegotiation hlatest).1] at hfound
  exact hother (hlatest.trans hfound)

/-- An agreement leaves no negotiation of its quote waiting if and only if no other than the latest
waited. -/
theorem agreesClean_iff (options : Options) (hindexed : NegotiationsIndexed w)
    (hknown : ProductsKnown w) :
    AgreesClean options w request ↔
      ∀ quoteId version, request.operation = .edit (.agreeToFinal quoteId version) →
        ∀ a, load quoteId w = .ok a w → ¬NotOpenTo w.store a (.agreeToFinal quoteId version) →
          ∀ item ∈ w.store.negotiations, item.quoteId = quoteId → item.Waits →
            latestNegotiation w.store quoteId = some item := by
  constructor
  · intro hclean quoteId version hop a hload hopen item hitem hquote hwaits
    by_contra hother
    have hnegotiations := (negotiations_of_serve options hop hload).trans
      (agreeToFinal_negotiations hopen)
    have hkept : item ∈ (serve options w request).store.negotiations := by
      rw [hnegotiations]
      cases hlatest : latestNegotiation w.store quoteId with
      | none => exact hitem
      | some latest =>
          have hne := waits_elsewhere hindexed.distinct hlatest hitem hother
          exact Table.mem_upsert_of_ne hitem hne
    have hserved : succeeds options w request = true := by
      refine (AccountEdit.agree version : AccountEdit administrator quoteId _).served options hknown hop
        fun hrefused => ?_
      obtain ⟨q, hq, hloaded⟩ := findById_eq_ok (show findById w.store quoteId = .ok a by
        rw [load_eq] at hload
        exact (lift_eq_ok.mp hload).1)
      refine hopen ((NotOpenTo.of_quote (.agree version : AccountEdit administrator quoteId _) hloaded.quote).mpr ?_)
      exact hrefused q hq (Option.isSome_iff_exists.mpr ⟨_, hloaded.customer⟩)
    exact hclean quoteId version hop hserved item hkept hquote hwaits
  · intro hcondition quoteId version hop hok item hitem hquote hwaits
    obtain ⟨a, edited, w₁, hload, hedit⟩ := edit_of_succeeds hop hok
    have hopen : ¬NotOpenTo w.store a (.agreeToFinal quoteId version) := by
      intro hclosed
      have hrefused : Refuses ((agreeToFinal (request.env options) quoteId version).edit a) w :=
        agreeToFinal_refuses hclosed
      exact hrefused.not_returns ⟨edited, w₁, hedit⟩
    rw [negotiations_of_serve options hop hload] at hitem
    rw [show (after (((QuoteEdit.agreeToFinal quoteId version).mutation (request.env options)).edit a)
      w).store.negotiations = _ from agreeToFinal_negotiations hopen] at hitem
    have hwaiting : item ∈ w.store.negotiations → False := by
      intro hstored
      have hlatest := hcondition quoteId version hop a hload hopen item hstored hquote hwaits
      exact hopen (.inr (.inr ⟨item, hlatest, hwaits⟩))
    cases hlatest : latestNegotiation w.store quoteId with
    | none =>
        rw [hlatest] at hitem
        exact hwaiting hitem
    | some latest =>
        rw [hlatest] at hitem
        rcases Table.mem_upsert hitem with rfl | hstored
        · rcases hwaits with hwaits | hwaits | hwaits <;> cases hwaits
        · exact hwaiting hstored

end Step

/-! ## Every run -/

/-- In every run, a quote never has two open negotiations and no agreement leaves one of its quote
waiting, if and only if discounts are asked for in the portal only while none of the quote is open and
agreements are sent only while none but the latest of the quote waits. -/
theorem one_live_iff (options : Options) (w₀ : World) (hfresh : w₀.Fresh) (requests : List Request) :
    ((∀ first rest, requests = first ++ rest → OneOpen (serveAll options w₀ first).store) ∧
      ∀ first request rest, requests = first ++ request :: rest →
        AgreesClean options (serveAll options w₀ first) request) ↔
      Machine.Meets (serve options) NegotiatesAlone w₀ requests := by
  have hstart : OneOpen w₀.store := by
    intro item hitem
    rw [hfresh.negotiations] at hitem
    cases hitem
  have hexact (w : World) (request : Request) (hw : NegotiationsIndexed w ∧ ProductsKnown w)
      (hone : OneOpen w.store) :
      OneOpen (serve options w request).store ∧ AgreesClean options w request ↔
        NegotiatesAlone w request := by
    rw [oneOpen_serve_iff options hw.1 hone, agreesClean_iff options hw.1 hw.2]
    exact ⟨fun h => ⟨h.1, h.2⟩, fun h => ⟨h.opens, h.agrees⟩⟩
  rw [← Machine.meets_iff_of_exact
    (fun w request hw => ⟨hw.1.serve options request, hw.2.serve options request⟩) hexact
    ⟨hfresh.negotiationsIndexed, hfresh.productsKnown⟩ hstart, Machine.meets_and]
  refine and_congr ⟨fun h => ?_, fun h => ?_⟩ Machine.meets_iff.symm
  · exact ((Machine.forall_prefix_iff (J := fun w : World => OneOpen w.store)).mp h).2
  · exact (Machine.forall_prefix_iff (J := fun w : World => OneOpen w.store)).mpr ⟨hstart, h⟩

/-- Two gateways are quoted, a salesperson notes a wish, and the customer is answered and agrees. -/
def answeredDeal : List Request :=
  [{ operation := .createQuote 1 none [{ productId := 11, quantity := 2, discountPercent := 0 }]
       administrator },
   { operation := .edit (.createNegotiationRequest 100 { note := "cheaper, please" } none)
     outside := { now := 1 } },
   { operation := .edit (.respondToNegotiation 100 103 .accepted "fine" 2 administrator) },
   { operation := .edit (.agreeToFinal 100 3) }]

/-- The negotiation is answered before the agreement, which leaves nothing waiting. -/
theorem one_live_answered :
    let w := serveAll plainOptions startWorld (answeredDeal.take 3)
    let agreement : Request := { operation := .edit (.agreeToFinal 100 3) }
    succeeds plainOptions w agreement = true ∧ OneOpen (serve plainOptions w agreement).store ∧
      ∀ item ∈ (serve plainOptions w agreement).store.negotiations, item.quoteId = 100 →
        ¬item.Waits := by
  intro w agreement
  have hanswered : ∀ item ∈ w.store.negotiations, item.status = .accepted := by decide +kernel
  have hmeets : Machine.Meets (serve plainOptions) NegotiatesAlone startWorld answeredDeal := by
    refine ⟨.of_other nofun nofun, .of_other nofun nofun, .of_other nofun nofun, ⟨nofun, ?_⟩, trivial⟩
    intro quoteId version _ a _ _ item hitem _ hwaits
    rw [NegotiationRequest.Waits, hanswered item hitem] at hwaits
    rcases hwaits with hwaits | hwaits | hwaits <;> cases hwaits
  have hruns := (one_live_iff plainOptions startWorld startWorld_fresh answeredDeal).mpr hmeets
  have hserved : succeeds plainOptions w agreement = true := by decide +kernel
  refine ⟨hserved, hruns.1 answeredDeal [] rfl, ?_⟩
  exact hruns.2 (answeredDeal.take 3) agreement [] rfl 100 3 rfl hserved

/-- A discount asked for in the portal is open beside the salesperson's note; it is rejected, and the
customer agrees while the note is still open. -/
theorem two_open_negotiations :
    let asked : Request :=
      { operation := .edit (.applyPortalChange 101 2 [{ lineId := 102, discountPercent := some 5 }])
        outside := { now := 2 } }
    let rejected : Request :=
      { operation := .edit (.respondToNegotiation 100 104 .rejected "no" 3 administrator) }
    let agreement : Request := { operation := .edit (.agreeToFinal 100 4) }
    let noted := serveAll plainOptions startWorld (answeredDeal.take 2)
    let answered := serveAll plainOptions noted [asked, rejected]
    ((serve plainOptions noted asked).store.negotiations.map fun item =>
        (item.id, item.quoteId, item.status)) = [(103, 100, .opened), (104, 100, .opened)] ∧
      succeeds plainOptions answered agreement = true ∧
        ∃ item ∈ (serve plainOptions answered agreement).store.negotiations,
          item.quoteId = 100 ∧ item.status = .opened := by
  decide +kernel

end DealFlow360
