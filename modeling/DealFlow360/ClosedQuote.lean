import DealFlow360.QuoteStep

/-!
# Quotes closed to commercial changes

Outside the statuses in which commercials may change, one path still reaches
the lines of a quote: an accepted negotiation writes the quantities it asks for
before anything asks whether the quote is open; only a discount among its
changes asks. This module says exactly when that path changes a line.

`acceptRequested` is looped over the changes that an accepted negotiation asks
for. On a closed quote a change that states a discount is refused, so what is
left are quantities (`acceptAll_silent`), and these change a line just where a
line has another quantity (`acceptAll_same`). `QuoteStep.closed_lines` carries
it from the edit to a served request: it leaves the lines of a closed quote
alone, unless it accepts another quantity.

The results on the commercial lock and on the coverage of approvals both take
their condition from here.
-/

namespace DealFlow360

open Program

/-- A requested change names a line of the quote and does not ask to remove it. -/
def Applies (lines : List QuoteLine) (item : NegotiationRequestedLine) : Prop :=
  (requestedOf lines item).isSome = true ∧ item.action ≠ some .remove

/-- It asks for another quantity than the line has. -/
def AsksOtherQuantity (lines : List QuoteLine) (item : NegotiationRequestedLine) : Prop :=
  ∃ line, requestedOf lines item = some line ∧ item.action ≠ some .remove ∧
    item.quantity.getD line.quantity ≠ line.quantity

/-- The edit accepts, at the current version, a negotiation of `q` that asks for another quantity and
states no discount. -/
def AcceptsOtherQuantity (store : Store) (q : QuoteAggregate) : QuoteEdit → Prop
  | .respondToNegotiation quoteId negotiationId .accepted _ version _ =>
      quoteId = q.id ∧ version = q.quote.version ∧ ∃ request, findNegotiation store quoteId negotiationId =
        .ok request ∧
        (∀ item ∈ request.requestedLines, Applies q.lines item → item.discountPercent = none) ∧
        ∃ item ∈ request.requestedLines, AsksOtherQuantity q.lines item
  | _ => False

section Accepting

variable {env : Env} {a : QuoteAggregate} {actor : Actor} {lines lines' : List QuoteLine}
  {item : NegotiationRequestedLine} {w w' : World}

theorem editLine_ids {f : QuoteLine → QuoteLine} (hf : ∀ line, (f line).id = line.id) (lineId : Id)
    (lines : List QuoteLine) : (editLine lineId f lines).map (·.id) = lines.map (·.id) :=
  Table.map_modifyFirst hf lines

theorem setRequestedQuantity_ids (lines : List QuoteLine) (item : NegotiationRequestedLine) :
    (setRequestedQuantity lines item).map (·.id) = lines.map (·.id) := by
  unfold setRequestedQuantity
  split
  · rfl
  · rfl
  · exact editLine_ids (by intro line; rfl) _ lines

/-- What an accepted change did: nothing, or the quantity, or the quantity and a discount it was
allowed. -/
theorem acceptRequested_eq_ok
    (h : acceptRequested env a actor lines item w = .ok lines' w') :
    ¬Applies lines item ∧ lines' = lines ∨
      Applies lines item ∧
        (item.discountPercent = none ∧ lines' = setRequestedQuantity lines item ∨
          canMutateCommercials a.quote.status = true ∧
            ∃ lineId discountPercent, lines' = editLine lineId
              (fun current => { current with discountPercent }) (setRequestedQuantity lines item)) := by
  unfold acceptRequested at h
  dsimp only at h
  split at h
  · rename_i hnot
    obtain ⟨rfl, -⟩ := pure_eq_ok.mp h
    refine .inl ⟨fun happlies => ?_, rfl⟩
    rcases hnot with hnone | hremove
    · rw [Option.isNone_iff_eq_none] at hnone
      simp [Applies, hnone] at happlies
    · exact happlies.2 hremove
  · rename_i happlies
    rw [not_or, Bool.not_eq_true, Option.isNone_eq_false_iff] at happlies
    refine .inr ⟨happlies, ?_⟩
    obtain ⟨line, hline⟩ := Option.isSome_iff_exists.mp happlies.1
    obtain ⟨lineId, hlineId, -⟩ := Option.bind_eq_some_iff.mp hline
    simp only [hlineId] at h
    cases hdiscount : item.discountPercent with
    | none =>
        simp only [hdiscount] at h
        obtain ⟨rfl, -⟩ := pure_eq_ok.mp h
        exact .inl ⟨rfl, rfl⟩
    | some discountPercent =>
        simp only [hdiscount, bind_eq_ok, pure_eq_ok] at h
        obtain ⟨_, _, hguard, rfl, -⟩ := h
        exact .inr ⟨(assertCommercialWrite_ok hguard).2.1, _, _, rfl⟩

theorem acceptRequested_ids (h : acceptRequested env a actor lines item w = .ok lines' w') :
    lines'.map (·.id) = lines.map (·.id) := by
  rcases acceptRequested_eq_ok h with ⟨-, rfl⟩ | ⟨-, ⟨-, rfl⟩ | ⟨-, lineId, discount, rfl⟩⟩
  · rfl
  · exact setRequestedQuantity_ids lines item
  · exact (editLine_ids (by intro line; rfl) _ _).trans (setRequestedQuantity_ids lines item)

/-- Which changes apply depends on the ids of the lines alone. -/
theorem applies_of_ids (h : lines'.map (·.id) = lines.map (·.id)) (happlies : Applies lines item) :
    Applies lines' item := by
  obtain ⟨hsome, hremove⟩ := happlies
  refine ⟨?_, hremove⟩
  obtain ⟨line, hline⟩ := Option.isSome_iff_exists.mp hsome
  obtain ⟨lineId, hlineId, hfound⟩ := Option.bind_eq_some_iff.mp hline
  have hmem : lineId ∈ lines'.map (·.id) := by
    rw [h, ← Table.key_of_lookup hfound]
    exact List.mem_map_of_mem (Table.mem_of_lookup hfound)
  obtain ⟨other, hother, rfl⟩ := List.mem_map.mp hmem
  obtain ⟨found, hlookup⟩ : ∃ found, Table.lookup QuoteLine.id other.id lines' = some found :=
    Table.exists_lookup_of_mem hother
  rw [requestedOf, hlineId, Option.bind_some, findLine, hlookup]
  rfl

/-- A closed quote refuses every change that states a discount. -/
theorem acceptAll_silent (hclosed : canMutateCommercials a.quote.status = false) :
    ∀ {requested : List NegotiationRequestedLine} {lines lines' : List QuoteLine} {w w' : World},
      requested.foldlM (acceptRequested env a actor) lines w = .ok lines' w' →
      ∀ item ∈ requested, Applies lines item → item.discountPercent = none
  | [], _, _, _, _, _, _, hitem, _ => absurd hitem List.not_mem_nil
  | head :: rest, lines, lines', w, w', h, item, hitem, happlies => by
      rw [List.foldlM_cons, bind_eq_ok] at h
      obtain ⟨lines₁, w₁, hhead, hrest⟩ := h
      rcases List.mem_cons.mp hitem with rfl | hitem
      · rcases acceptRequested_eq_ok hhead with ⟨hnot, -⟩ | ⟨-, ⟨hnone, -⟩ | ⟨hopen, -⟩⟩
        · exact absurd happlies hnot
        · exact hnone
        · rw [hclosed] at hopen
          cases hopen
      · exact acceptAll_silent hclosed hrest item hitem
          (applies_of_ids (acceptRequested_ids hhead) happlies)

theorem setRequestedQuantity_same (h : ¬AsksOtherQuantity lines item) :
    setRequestedQuantity lines item = lines := by
  unfold setRequestedQuantity
  split
  · rfl
  · rfl
  · rename_i lineId action hlineId hremove
    refine Table.modifyFirst_eq_self fun line hline => ?_
    have hquantity : item.quantity.getD line.quantity = line.quantity := by
      by_contra hother
      refine h ⟨line, ?_, fun haction => hremove haction, hother⟩
      rw [requestedOf, hlineId]
      exact hline
    rw [hquantity]

/-- A closed quote keeps its lines where every change asks for the quantity a line has. -/
theorem acceptAll_same (hclosed : canMutateCommercials a.quote.status = false) :
    ∀ {requested : List NegotiationRequestedLine} {lines lines' : List QuoteLine} {w w' : World},
      requested.foldlM (acceptRequested env a actor) lines w = .ok lines' w' →
      (∀ item ∈ requested, ¬AsksOtherQuantity lines item) → lines' = lines
  | [], _, _, _, _, h, _ => (pure_eq_ok.mp h).1.symm
  | head :: rest, lines, lines', w, w', h, hsame => by
      rw [List.foldlM_cons, bind_eq_ok] at h
      obtain ⟨lines₁, w₁, hhead, hrest⟩ := h
      have hfirst : lines₁ = lines := by
        rcases acceptRequested_eq_ok hhead with ⟨-, rfl⟩ | ⟨-, ⟨-, rfl⟩ | ⟨hopen, -⟩⟩
        · rfl
        · exact setRequestedQuantity_same (hsame head List.mem_cons_self)
        · rw [hclosed] at hopen
          cases hopen
      subst hfirst
      exact acceptAll_same hclosed hrest fun item hitem => hsame item (List.mem_cons_of_mem _ hitem)

end Accepting

/-! ## One request -/

theorem canMutateCommercials_of_isWon {status : QuoteStatus} (h : isWon status = true) :
    canMutateCommercials status = false := by
  revert h
  cases status <;> decide

/-- A request leaves the lines of a closed quote alone, unless it accepts another quantity. -/
theorem QuoteStep.closed_lines {options : Options} {w : World} {request : Request}
    {q q' : QuoteAggregate} (h : QuoteStep options w request q q')
    (hclosed : canMutateCommercials q.quote.status = false)
    (hno : ∀ op, request.operation = .edit op → ¬AcceptsOtherQuantity w.store q op) :
    q'.lines = q.lines := by
  cases h with
  | untouched => rfl
  | assessed hop hq hid hpairs => exact hq.lines
  | @edited op a b w₁ pairs hop hload hq hedit hframe hchange hpairs hnext =>
      show b.lines = q.lines
      rw [← hq.lines]
      have hclosed' : canMutateCommercials a.quote.status = false := by
        rw [hq.quote]
        exact hclosed
      rcases hchange.lines with hsame | ⟨lines, hlines, hrelines, hwhy⟩
      · exact hsame
      · rcases hwhy with ⟨hopen, -⟩ | ⟨hopen, -⟩ | ⟨quoteId, negotiationId, note, actor, rfl⟩
        · rw [hclosed'] at hopen
          cases hopen
        · rcases hopen with hopen | hopen <;> rw [hopen] at hclosed' <;> cases hclosed'
        · cases hrelines with
          | @respondToNegotiation _ _ _ _ _ found _ w₂ hrequest hall =>
              rw [hlines]
              refine acceptAll_same hclosed' hall fun item hitem hasks => hno _ hop ?_
              obtain ⟨q₀, hq₀, hid⟩ := loaded_of_load hload
              have hquoteId : quoteId = q.id := by
                rw [← hid]
                exact congrArg Quote.id (hq₀.quote.symm.trans hq.quote)
              rw [hq.lines] at hasks
              refine ⟨hquoteId, congrArg Quote.version hq.quote, found, hrequest, fun other hother happlies =>
                ?_, item, hitem, hasks⟩
              exact acceptAll_silent hclosed' hall other hother (by rwa [hq.lines])

end DealFlow360
