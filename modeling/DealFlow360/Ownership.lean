import DealFlow360.Negotiations
import DealFlow360.QuoteLines

/-!
# Customer accounts and the quotes of others

Two routes of a quote ask for an account and for no permission: attaching a
negotiation and agreeing to the quotation. Reading the negotiations of a quote
checks that the account is the customer's own; these two do not, so somebody
else's account is refused exactly where the customer's own would be.

`Stranger` is an account that is not the quote's customer. The two edits left
to every account are one shape, `AccountEdit`: they are served where the quote
is in a state for them, whoever sends them, and refused without a write
elsewhere (`AccountEdit.served`, `AccountEdit.refused`).

- `strangers_kept_out_iff`: in every reachable store, a stranger is kept out of
  a quote by these edits exactly where the quote is not in a state for them;
- `listNegotiationRequests_refuses`: the sibling route, which does ask whose
  account it is.
-/

namespace DealFlow360

open Program

/-! ## Accounts -/

def Store.findCustomersByEmail (platform : Platform) (store : Store) (email : String) :
    List Customer :=
  let needle := platform.toLowerCase (trim email)
  store.customers.filter fun item => platform.toLowerCase item.email = needle

/-- The account's email is one of the quote's customer. -/
def OwnsQuote (platform : Platform) (store : Store) (actor : Actor) (customerId : Id) : Bool :=
  (store.findCustomersByEmail platform (actor.email.getD "")).any fun item => item.id = customerId

/-- Reading the negotiations of a quote, which customer accounts may do for quotes of their own. -/
def listNegotiationRequests (env : Env) (quoteId : Id) (actor : Option Actor) :
    Service (List NegotiationRequest) := do
  let aggregate ← load quoteId
  let store ← read (·.store)
  throwIf (actor.any fun someone =>
      (someone.role = some "user" || someone.roles.contains "user") &&
        !OwnsQuote env.options.platform store someone aggregate.customer.id)
    (forbidden "You can only read negotiations for your own quotations")
  return store.listNegotiations quoteId

/-- A customer account without permissions, of somebody who is not the quote's customer. -/
structure Stranger (platform : Platform) (store : Store) (actor : Actor) (quoteId : Id) : Prop where
  role : actor.role = some "user"
  permissions : ∀ permission ∈ actor.permissions, permission.startsWith "dealflow." = false
  foreign : ∀ q, store.storedQuote quoteId = some q →
    OwnsQuote platform store actor q.quote.customerId = false

/-- The edits of a quote that its routes leave to every account. -/
inductive AccountEdit (actor : Actor) (quoteId : Id) : QuoteEdit → Prop
  | negotiations (input : NegotiationInput) :
      AccountEdit actor quoteId (.createNegotiationRequest quoteId input (some actor))
  | agree (expectedVersion : ℕ) : AccountEdit actor quoteId (.agreeToFinal quoteId expectedVersion)

/-! ## What the two edits check -/

/-- The stored quote `q` is not in a state for the edit, whoever sends it. -/
def NotOpenTo (store : Store) (q : QuoteAggregate) : QuoteEdit → Prop
  | .createNegotiationRequest quoteId input _ =>
      (∃ version, input.expectedVersion = some version ∧ q.quote.version ≠ version) ∨
        (q.quote.status ≠ .draft ∧ q.quote.status ≠ .customerNegotiation) ∨
        ¬NoneOpen store quoteId
  | .agreeToFinal quoteId expectedVersion =>
      q.quote.version ≠ expectedVersion ∨
        (q.quote.status ≠ .draft ∧ q.quote.status ≠ .customerNegotiation ∧
          q.quote.status ≠ .managerReview ∧ q.quote.status ≠ .finalized) ∨
        ∃ latest, latestNegotiation store quoteId = some latest ∧
          (latest.status = .opened ∨ latest.status = .inReview ∨ latest.status = .sentToManager)
  | _ => False

section Edits

variable {env : Env} {a : QuoteAggregate} {w : World} {quoteId : Id} {actor : Actor} {op : QuoteEdit}

/-- An edit that always saves has something to save where it returns. -/
theorem exists_saved {load : Service QuoteAggregate} {edit : QuoteAggregate → Service QuoteAggregate}
    {tail : QuoteAggregate → Service PUnit} (h : Returns (edit a) w) :
    ∃ b w₁, (Mutation.saving env load edit tail).edit a w = .ok (some b) w₁ := by
  obtain ⟨b, w₁, hok⟩ := h
  exact ⟨b, w₁, map_eq_ok.mpr ⟨b, hok, rfl⟩⟩

theorem assertVersionIfSent_eq_ok {version : Option ℕ}
    (h : ∀ sent, version = some sent → a.quote.version = sent) :
    assertVersionIfSent a version w = .ok ⟨⟩ w := by
  unfold assertVersionIfSent
  cases version with
  | none => rfl
  | some sent => exact assertExpectedVersion_eq_ok.mpr ⟨h sent rfl, rfl⟩

theorem any_opened_iff : (w.store.listNegotiations quoteId).any
    (fun item => item.status = .opened) = true ↔ ¬NoneOpen w.store quoteId := by
  simp only [NoneOpen, List.any_eq_true, decide_eq_true_eq, mem_listNegotiations, not_forall, not_not,
    exists_prop, and_assoc]

/-- Where a version is sent, it is compared first. -/
theorem assertVersionIfSent_refuses {version : Option ℕ} {sent : ℕ} (hsent : version = some sent)
    (hother : a.quote.version ≠ sent) : Refuses (assertVersionIfSent a version) w := by
  rw [hsent]
  exact .throwIf hother _ w

/-- In a state for it, a negotiation is attached. -/
theorem createNegotiationRequest_admits {input : NegotiationInput} {sender : Option Actor}
    (h : ¬NotOpenTo w.store a (.createNegotiationRequest quoteId input sender)) :
    ∃ b w₁, (createNegotiationRequest env quoteId input sender).edit a w = .ok (some b) w₁ := by
  simp only [NotOpenTo, not_or, not_exists, not_and, not_not] at h
  obtain ⟨hversion, hstatus, hnone⟩ := h
  have hmove : a.quote.status = .customerNegotiation ∨
      Transition a.quote.status .customerNegotiation := by
    by_cases hdraft : a.quote.status = .draft
    · rw [hdraft]
      exact .inr (by decide)
    · exact .inl (hstatus hdraft)
  refine exists_saved ?_
  refine .bind (assertVersionIfSent_eq_ok hversion) ?_
  refine .bind (throwIf_of_not (fun hclosed => hclosed.2 (hstatus hclosed.1)) _ _) ?_
  refine .bind (read_eq_ok.mpr ⟨rfl, rfl⟩) ?_
  refine .bind (throwIf_of_not (fun hany => any_opened_iff.mp hany hnone) _ _) ?_
  refine .bind (moveTo_eq_ok.mpr ⟨hmove, rfl, rfl⟩) ?_
  refine .bind (randomUUID_eq_ok.mpr ⟨rfl, rfl⟩) ?_
  exact .bind ((updateStore_eq_ok (u := ⟨⟩)).mpr rfl) (.of_total _ _)

/-- Out of a state for it, a negotiation is refused before anything is written. -/
theorem createNegotiationRequest_refuses {input : NegotiationInput} {sender : Option Actor}
    (h : NotOpenTo w.store a (.createNegotiationRequest quoteId input sender)) :
    Refuses ((createNegotiationRequest env quoteId input sender).edit a) w := by
  refine .map ?_ some
  by_cases hversion : ∀ sent, input.expectedVersion = some sent → a.quote.version = sent
  · refine .after_ok (assertVersionIfSent_eq_ok hversion) ?_
    by_cases hstatus : a.quote.status ≠ .draft ∧ a.quote.status ≠ .customerNegotiation
    · exact .bind (.throwIf hstatus _ w)
    · refine .after_ok (throwIf_of_not hstatus _ _) ?_
      refine .after_ok (read_eq_ok.mpr ⟨rfl, rfl⟩) ?_
      rcases h with ⟨sent, hsent, hother⟩ | hclosed | hopened
      · exact absurd (hversion sent hsent) hother
      · exact absurd hclosed hstatus
      · exact .bind (.throwIf (any_opened_iff.mpr hopened) _ w)
  · simp only [not_forall, exists_prop] at hversion
    obtain ⟨sent, hsent, hother⟩ := hversion
    exact .bind (assertVersionIfSent_refuses hsent hother)

theorem any_live_iff {latest : Option NegotiationRequest} :
    latest.any (fun request => request.status = .opened || request.status = .inReview ||
      request.status = .sentToManager) = true ↔
    ∃ request, latest = some request ∧ (request.status = .opened ∨ request.status = .inReview ∨
      request.status = .sentToManager) := by
  cases latest with
  | none => simp
  | some request => simp [or_assoc]

/-- In a state for it, a quotation is agreed to. -/
theorem agreeToFinal_admits {version : ℕ} (h : ¬NotOpenTo w.store a (.agreeToFinal quoteId version)) :
    ∃ b w₁, (agreeToFinal env quoteId version).edit a w = .ok (some b) w₁ := by
  simp only [NotOpenTo, not_or, not_not] at h
  obtain ⟨hversion, hstatus, hlatest⟩ := h
  refine exists_saved ?_
  refine .bind (assertExpectedVersion_eq_ok (u := ⟨⟩) |>.mpr ⟨hversion, rfl⟩) ?_
  refine .bind (throwIf_of_not hstatus _ _) ?_
  refine .bind (read_eq_ok.mpr ⟨rfl, rfl⟩) ?_
  refine .bind (throwIf_of_not (fun hany => hlatest (any_live_iff.mp hany)) _ _) ?_
  cases latestNegotiation w.store quoteId with
  | none => exact .bind (pure_eq_ok.mpr ⟨rfl, rfl⟩) (.of_total _ _)
  | some request => exact .bind (bind_of_ok (updateStore_eq_ok (u := ⟨⟩) |>.mpr rfl)) (.of_total _ _)

/-- Out of a state for it, an agreement is refused before anything is written. -/
theorem agreeToFinal_refuses {version : ℕ} (h : NotOpenTo w.store a (.agreeToFinal quoteId version)) :
    Refuses ((agreeToFinal env quoteId version).edit a) w := by
  refine .map ?_ some
  by_cases hversion : a.quote.version = version
  · refine .after_ok (assertExpectedVersion_eq_ok (u := ⟨⟩) |>.mpr ⟨hversion, rfl⟩) ?_
    rcases h with hother | hclosed | hlive
    · exact absurd hversion hother
    · exact .bind (.throwIf hclosed _ w)
    · by_cases hstatus : a.quote.status ≠ .draft ∧ a.quote.status ≠ .customerNegotiation ∧
          a.quote.status ≠ .managerReview ∧ a.quote.status ≠ .finalized
      · exact .bind (.throwIf hstatus _ w)
      · refine .after_ok (throwIf_of_not hstatus _ _) ?_
        refine .after_ok (read_eq_ok.mpr ⟨rfl, rfl⟩) ?_
        exact .bind (.throwIf (any_live_iff.mpr hlive) _ w)
  · exact .bind (.throwIf hversion _ w)

end Edits

/-! ## Requests -/

/-- The quote of an id with its customer and products. -/
def findById (store : Store) (id : Id) : Except DomainError QuoteAggregate :=
  match store.storedQuote id with
  | none => .error (notFound "Quote not found" [("id", .id id)])
  | some q => store.attach q

theorem load_eq (id : Id) (w : World) : load id w = lift (findById w.store id) w := by
  unfold load getStoredQuote findById
  simp only [bind, EStateM.bind, Program.read]
  cases w.store.storedQuote id with
  | none => rfl
  | some q =>
      cases hattach : w.store.attach q with
      | error e =>
          simp only [hattach]
          rfl
      | ok a =>
          simp only [hattach]
          rfl

theorem findById_eq_ok {store : Store} {id : Id} {a : QuoteAggregate}
    (h : findById store id = .ok a) : ∃ q, store.storedQuote id = some q ∧ Loaded store q a := by
  unfold findById at h
  split at h
  · cases h
  · rename_i q hq
    exact ⟨q, hq, Table.mem_of_lookup hq, h⟩

/-- The quote is not there with its customer, or not in a state for the edit. -/
def RefusedToAll (store : Store) (quoteId : Id) (op : QuoteEdit) : Prop :=
  ∀ q, store.storedQuote quoteId = some q → (store.getCustomer q.quote.customerId).isSome = true →
    NotOpenTo store q op

section Requests

variable {options : Options} {w : World} {request : Request} {quoteId : Id} {actor : Actor}
  {op : QuoteEdit}

theorem AccountEdit.loads (h : AccountEdit actor quoteId op) (env : Env) :
    (op.mutation env).load = load quoteId := by
  cases h <;> rfl

theorem NotOpenTo.of_quote {store : Store} {q a : QuoteAggregate} (h : AccountEdit actor quoteId op)
    (hquote : a.quote = q.quote) : NotOpenTo store a op ↔ NotOpenTo store q op := by
  cases h <;> simp only [NotOpenTo, hquote]

theorem AccountEdit.admits (h : AccountEdit actor quoteId op) (env : Env) {a : QuoteAggregate}
    (hopen : ¬NotOpenTo w.store a op) : ∃ b w₁, (op.mutation env).edit a w = .ok (some b) w₁ := by
  cases h with
  | negotiations input => exact createNegotiationRequest_admits hopen
  | agree version => exact agreeToFinal_admits hopen

theorem AccountEdit.refuses (h : AccountEdit actor quoteId op) {env : Env} {a : QuoteAggregate}
    (hclosed : NotOpenTo w.store a op) : Refuses ((op.mutation env).edit a) w := by
  cases h with
  | negotiations input => exact createNegotiationRequest_refuses hclosed
  | agree version => exact agreeToFinal_refuses hclosed

/-- The two edits leave every line its product. -/
theorem AccountEdit.products (h : AccountEdit actor quoteId op) {env : Env} {w' : World}
    {a b : QuoteAggregate} (hchange : Change env w w' a b op) :
    b.lines.map (·.productId) = a.lines.map (·.productId) := by
  rcases hchange.lines with hsame | ⟨lines, hb, hlines, -⟩
  · rw [hsame]
  · rw [hb]
    cases h with
    | negotiations input =>
        cases hlines
        exact requestedQuantities_view (fun line quantity => rfl) ..
    | agree version => cases hlines

/-- Where the quote is not there or not in a state for it, the request fails and writes nothing. -/
theorem AccountEdit.refused (h : AccountEdit actor quoteId op) (options : Options)
    (hop : request.operation = .edit op) (hrefused : RefusedToAll w.store quoteId op) :
    succeeds options w request = false ∧ serve options w request = w := by
  have hload : (op.mutation (request.env options)).load w = lift (findById w.store quoteId) w := by
    rw [h.loads]
    exact load_eq quoteId w
  have hrun : Refuses ((op.mutation (request.env options)).run (request.env options)) w := by
    cases hfind : findById w.store quoteId with
    | error e =>
        rw [hfind] at hload
        exact .bind ⟨e, hload⟩
    | ok a =>
        rw [hfind] at hload
        obtain ⟨q, hq, hquote⟩ := findById_eq_ok hfind
        have hclosed : NotOpenTo w.store a op :=
          (NotOpenTo.of_quote h hquote.quote).mpr
            (hrefused q hq (Option.isSome_iff_exists.mpr ⟨_, hquote.customer⟩))
        exact .after_ok hload (.bind (h.refuses hclosed))
  have hprogram : Refuses (request.program options) w := by
    unfold Request.program
    rw [hop]
    exact .bind hrun
  obtain ⟨e, herror⟩ := hprogram
  refine ⟨?_, after_of_error herror⟩
  unfold succeeds
  rw [herror]

/-- Where the quote is in a state for it, the request is served, whoever sends it. -/
theorem AccountEdit.served (h : AccountEdit actor quoteId op) (options : Options) (hknown : ProductsKnown w)
    (hop : request.operation = .edit op) (hopen : ¬RefusedToAll w.store quoteId op) :
    succeeds options w request = true := by
  simp only [RefusedToAll, not_forall, exists_prop] at hopen
  obtain ⟨q, hq, hcustomer, hopen⟩ := hopen
  obtain ⟨customer, hcustomer⟩ := Option.isSome_iff_exists.mp hcustomer
  obtain ⟨a, hattach⟩ : ∃ a, w.store.attach q = .ok a := ⟨_, attach_eq_ok.mpr ⟨customer, hcustomer, rfl⟩⟩
  have hquote : Loaded w.store q a := ⟨Table.mem_of_lookup hq, hattach⟩
  have hload : (op.mutation (request.env options)).load w = .ok a w := by
    rw [h.loads, load_eq, findById, hq]
    dsimp only
    rw [hattach]
    rfl
  obtain ⟨b, w₁, hedit⟩ := h.admits (request.env options)
    (fun hclosed => hopen ((NotOpenTo.of_quote h hquote.quote).mp hclosed))
  have hframe : EditFrame w w₁ := (keeps_edit _ op a).of_ok hedit
  have hproducts : b.lines.map (·.productId) = a.lines.map (·.productId) :=
    h.products (change_of_edit op hedit)
  obtain ⟨pairs, hpairs⟩ : ∃ pairs, pairProducts w₁.store b.lines = .ok pairs := by
    refine pairs_of_known fun line hline => ?_
    have hmem := List.mem_map_of_mem (f := (·.productId)) hline
    rw [hproducts] at hmem
    obtain ⟨old, hold, hsame⟩ := List.mem_map.mp hmem
    rw [hquote.lines] at hold
    have hfound := hknown q hquote.mem old hold
    rw [show line.productId = old.productId from hsame.symm, hframe.store]
    exact hfound
  exact succeeds_of_saved hop hload hquote hedit hpairs

/-- Reading the negotiations is refused to a stranger. -/
theorem listNegotiationRequests_refuses (env : Env)
    (hstranger : Stranger env.options.platform w.store actor quoteId) :
    Refuses (listNegotiationRequests env quoteId (some actor)) w := by
  unfold listNegotiationRequests
  cases hfind : findById w.store quoteId with
  | error e =>
      have hload : load quoteId w = .error e w := by
        rw [load_eq, hfind]
        rfl
      exact .bind ⟨e, hload⟩
  | ok a =>
      have hload : load quoteId w = .ok a w := by
        rw [load_eq, hfind]
        rfl
      obtain ⟨q, hq, hquote⟩ := findById_eq_ok hfind
      have hcustomerId : a.customer.id = q.quote.customerId := by
        simpa using List.find?_some hquote.customer
      refine .after_ok hload (.after_ok (read_eq_ok.mpr ⟨rfl, rfl⟩) (.bind (.throwIf ?_ _ w)))
      simp only [Option.any_some, hstranger.role, hcustomerId, hstranger.foreign q hq, decide_true,
        Bool.true_or, Bool.not_false, Bool.and_self]

end Requests

/-! ## Every reachable store -/

/-- The request fails and leaves the quote, its lines and its negotiations as they were. -/
structure KeptOut (options : Options) (w : World) (request : Request) (quoteId : Id) : Prop where
  fails : succeeds options w request = false
  quote : (serve options w request).store.storedQuote quoteId = w.store.storedQuote quoteId
  negotiations :
    (serve options w request).store.listNegotiations quoteId = w.store.listNegotiations quoteId

/-- In every reachable store, an account that is not the quote's customer is kept out of the quote by
the edits left to every account if and only if the quote is in no state for the edit, in which its own
customer is refused as well. -/
theorem strangers_kept_out_iff (options : Options) (w₀ : World) (hfresh : w₀.Fresh)
    (requests : List Request) (actor : Actor) (quoteId : Id) (request : Request) (op : QuoteEdit)
    (hop : request.operation = .edit op) (haccount : AccountEdit actor quoteId op) :
    let w := serveAll options w₀ requests
    Stranger options.platform w.store actor quoteId →
      (KeptOut options w request quoteId ↔ RefusedToAll w.store quoteId op) := by
  intro w _
  have hknown : ProductsKnown w :=
    Machine.invariant (fun _ request h => h.serve options request) hfresh.productsKnown requests
  constructor
  · intro hkept
    by_contra hopen
    have hserved := haccount.served options hknown hop hopen
    rw [hkept.fails] at hserved
    cases hserved
  · intro hrefused
    obtain ⟨hfails, hworld⟩ := haccount.refused options hop hrefused
    exact ⟨hfails, by rw [hworld], by rw [hworld]⟩

/-- Somebody with an account and no business with the quote. -/
def stranger : Actor where
  id := "eve"
  email := some "eve@example.com"
  role := some "user"

theorem stranger_of_quotes {store : Store} (quoteId : Id)
    (h : ∀ q ∈ store.quotes, OwnsQuote plainPlatform store stranger q.quote.customerId = false) :
    Stranger plainPlatform store stranger quoteId where
  role := rfl
  permissions := by
    intro permission hpermission
    cases hpermission
  foreign q hq := h q (Table.mem_of_lookup hq)

/-- An approved quote is agreed to by nobody any more, a stranger included. -/
theorem strangers_kept_out_approved :
    let w := serveAll plainOptions startWorld
      (approvedDeal [{ productId := 11, quantity := 2, discountPercent := 0 }])
    KeptOut plainOptions w { operation := .edit (.agreeToFinal 100 4) } 100 := by
  intro w
  refine (strangers_kept_out_iff plainOptions startWorld startWorld_fresh _ stranger 100
    { operation := .edit (.agreeToFinal 100 4) } _ rfl (.agree 4)
    (stranger_of_quotes 100 (by decide +kernel))).mpr ?_
  have hclosed : ∀ q ∈ w.store.quotes, q.quote.status = .approved := by decide +kernel
  intro q hq _
  refine .inr (.inl ?_)
  rw [hclosed q (Table.mem_of_lookup hq)]
  decide

/-- A stranger asks for fifty of what somebody else is quoted two, and the quote has fifty. -/
theorem stranger_let_in :
    let w := serveAll plainOptions startWorld
      [{ operation := .createQuote 1 none [{ productId := 11, quantity := 2, discountPercent := 0 }]
           administrator }]
    let asked : Request :=
      { operation := .edit (.createNegotiationRequest 100
          { note := "fifty, please", requestedLines := [{ lineId := some 102, quantity := some 50 }] }
          (some stranger)) }
    Stranger plainPlatform w.store stranger 100 ∧ succeeds plainOptions w asked = true ∧
      (∃ q ∈ w.store.quotes, q.id = 100 ∧ q.lines.map (·.quantity) = [2]) ∧
      ∃ q ∈ (serve plainOptions w asked).store.quotes, q.id = 100 ∧ q.lines.map (·.quantity) = [50] := by
  intro w asked
  exact ⟨stranger_of_quotes 100 (by decide +kernel), by decide +kernel, by decide +kernel,
    by decide +kernel⟩

end DealFlow360
