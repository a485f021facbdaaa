import DealFlow360.CustomerAcceptance
import DealFlow360.PortalView

/-!
# A decision sent twice

`applyPortalDecision` answers a repetition without a save: the same decision,
recorded on the version the quote has. But recording a decision gives the quote
its next version, so the version a decision is on record with is always an
earlier one, and a repetition is recorded again.

A decision goes through by finding the quote open and not recorded for its
version; `stored_of_saved` says what it leaves behind the token.
`succeeds_again` puts two of them in a row: the version recorded is the one
before the save, so the second finds nothing recorded for the version it names.

- `decision_recorded_again`: however the quote came about, a decision that goes
  through, sent again with the version the quote then has, is recorded again;
- `acceptance_not_idempotent`: the shortest deal that shows it.

The statement needs no condition: the guard of the source is never met.
-/

namespace DealFlow360

open Program

/-! ## Decisions on record -/

/-- A decision on record was given on an earlier version. -/
def DecidedBefore (w : World) : Prop :=
  ∀ q ∈ w.store.quotes, ∀ version, q.quote.customerDecisionVersion = some version → version < q.quote.version

theorem draft_undecidedVersion {env : Env} {customerId : Id} {ownerId : Option String}
    {inputs : List LineInput} {actor : Actor} {w w' : World} {b : QuoteAggregate}
    (h : draftQuote env customerId ownerId inputs actor w = .ok b w') :
    b.quote.customerDecisionVersion = none := by
  simp only [draftQuote, bind_eq_ok, pure_eq_ok] at h
  obtain ⟨_, _, -, _, _, -, _, _, -, _, _, -, _, _, -, _, _, -, _, _, -, rfl, -⟩ := h
  rfl

section Step

variable {options : Options} {w : World} {request : Request}

/-- A request keeps the decision on record, or records one on the version the quote had and leaves the next. -/
theorem QuoteStep.decidedBefore {q q' : QuoteAggregate} (h : QuoteStep options w request q q')
    (hbefore : ∀ version, q.quote.customerDecisionVersion = some version → version < q.quote.version) :
    ∀ version, q'.quote.customerDecisionVersion = some version → version < q'.quote.version := by
  intro version hversion
  cases h with
  | untouched => exact hbefore version hversion
  | assessed hop hq hid hpairs =>
      have hdecided := eq_of_core (fun c => c.quote.customerDecisionVersion) hq.core (fun _ => rfl)
      have hsame := eq_of_core (fun c => c.quote.version) hq.core (fun _ => rfl)
      exact (hbefore version (hdecided.symm.trans hversion)).trans_eq hsame.symm
  | @edited op a b w₁ pairs hop hload hq hedit hframe hchange hpairs hnext =>
      have hversion : b.quote.customerDecisionVersion = some version := hversion
      show version < b.quote.version
      rw [hchange.version, hq.quote]
      rcases decided_of_edit hedit with hkept | ⟨hnow, -⟩
      · have hkept : b.quote.customerDecisionVersion = a.quote.customerDecisionVersion := congrArg Prod.snd hkept
        rw [hkept, hq.quote] at hversion
        exact Nat.lt_succ_of_lt (hbefore version hversion)
      · rw [hnow, hq.quote] at hversion
        exact Nat.lt_succ_of_le (Nat.le_of_eq (Option.some.inj hversion).symm)

theorem DecidedBefore.serve (h : DecidedBefore w) (options : Options) (request : Request) :
    DecidedBefore (serve options w request) := by
  intro q' hq'
  rcases draft_of_serve hq' with
    ⟨q, hq, hstep⟩ | ⟨customerId, ownerId, inputs, actor, b, w₁, pairs, hop, hdraft, -, -, rfl⟩
  · exact hstep.decidedBefore (h q hq)
  · intro version hversion
    have hversion : b.quote.customerDecisionVersion = some version := hversion
    rw [draft_undecidedVersion hdraft] at hversion
    cases hversion

theorem World.Fresh.decidedBefore (hw : w.Fresh) (options : Options) (requests : List Request) :
    DecidedBefore (serveAll options w requests) := by
  have hstart : DecidedBefore w := by
    intro q hq
    rw [hw.quotes] at hq
    cases hq
  exact Machine.invariant (I := DecidedBefore) (fun _ request h => h.serve options request) hstart requests

end Step

/-! ## One decision -/

/-- The quote with the decision recorded, under its next version. -/
def decisionRecord (env : Env) (a : QuoteAggregate) (action : CustomerDecision) (comment : Option String) :
    QuoteAggregate :=
  bumpVersion
    { setCustomerDecision env a action with
      quote := { (setCustomerDecision env a action).quote with customerDecisionComment := comment } }

/-- Customers may decide about a quote in these statuses. -/
def OpenToDecision (q : QuoteAggregate) : Prop :=
  q.quote.status = .draft ∨ q.quote.status = .customerNegotiation ∨ q.quote.status = .managerReview

section Decision

variable {env : Env} {token : Id} {version : ℕ} {action : CustomerDecision} {comment : Option String} {w w' : World}

theorem decisionEdit_eq_ok {a : QuoteAggregate} {edited : Option QuoteAggregate} :
    (applyPortalDecision env token version action comment).edit a w = .ok edited w' ↔
      a.quote.version = version ∧ OpenToDecision a ∧ w = w' ∧
        (if a.quote.customerDecision = action ∧ a.quote.customerDecisionVersion = some a.quote.version then none
          else some (decisionRecord env a action comment)) = edited := by
  have hopen : ¬(a.quote.status ≠ .draft ∧ a.quote.status ≠ .customerNegotiation ∧ a.quote.status ≠ .managerReview) ↔
      OpenToDecision a := by
    unfold OpenToDecision
    tauto
  simp only [applyPortalDecision, bind_eq_ok, throwIf_eq_ok, assertExpectedVersion_eq_ok, hopen]
  constructor
  · rintro ⟨_, _, ⟨hversion, rfl⟩, _, _, ⟨hstatus, rfl⟩, h⟩
    by_cases hrepeats : a.quote.customerDecision = action ∧ a.quote.customerDecisionVersion = some a.quote.version
    · rw [if_pos hrepeats] at h
      obtain ⟨rfl, rfl⟩ := pure_eq_ok.mp h
      exact ⟨hversion, hstatus, rfl, if_pos hrepeats⟩
    · rw [if_neg hrepeats] at h
      obtain ⟨rfl, rfl⟩ := pure_eq_ok.mp h
      exact ⟨hversion, hstatus, rfl, if_neg hrepeats⟩
  · rintro ⟨hversion, hstatus, rfl, rfl⟩
    refine ⟨PUnit.unit, w, ⟨hversion, rfl⟩, PUnit.unit, w, ⟨hstatus, rfl⟩, ?_⟩
    by_cases hrepeats : a.quote.customerDecision = action ∧ a.quote.customerDecisionVersion = some a.quote.version
    · rw [if_pos hrepeats, if_pos hrepeats]
      rfl
    · rw [if_neg hrepeats, if_neg hrepeats]
      rfl

theorem decisionLoad_eq_ok {a : QuoteAggregate} :
    (applyPortalDecision env token version action comment).load w = .ok a w' ↔
      (action = .accepted ∨ action = .declined) ∧ findByToken w.store token = .ok a ∧ w = w' := by
  have hvalid : ¬(action ≠ .accepted ∧ action ≠ .declined) ↔ action = .accepted ∨ action = .declined := by
    tauto
  simp only [applyPortalDecision, bind_eq_ok, throwIf_eq_ok, hvalid, loadByToken_eq, lift_eq_ok]
  constructor
  · rintro ⟨_, _, ⟨haction, rfl⟩, hfind, rfl⟩
    exact ⟨haction, hfind, rfl⟩
  · rintro ⟨haction, hfind, rfl⟩
    exact ⟨PUnit.unit, w, ⟨haction, rfl⟩, hfind, rfl⟩

theorem findByToken_eq_ok {store : Store} {a : QuoteAggregate} :
    findByToken store token = .ok a ↔ ∃ q, store.storedByToken token = some q ∧ store.attach q = .ok a := by
  unfold findByToken
  cases store.storedByToken token <;> simp

end Decision

/-! ## Two decisions -/

section Repetition

variable {options : Options} {w : World} {token : Id} {version : ℕ} {action : CustomerDecision}
  {comment : Option String} {request : Request}

/-- What a recorded decision leaves behind the token. -/
theorem stored_of_saved {q a : QuoteAggregate} {w' : World} {pairs : List (QuoteLine × Product)} (hw : w.Indexed)
    (hfind : w.store.storedByToken token = some q) (hattach : w.store.attach q = .ok a)
    (htail : TailFrame (w.withQuote (savedRecord (request.env options) w.store
      (decisionRecord (request.env options) a action comment) pairs)) w') :
    w'.store.storedByToken token = some (savedRecord (request.env options) w.store
      (decisionRecord (request.env options) a action comment) pairs) := by
  have hcore := core_attach hattach
  have htoken : q.quote.portalToken = token := by simpa using List.find?_some hfind
  unfold Store.storedByToken
  rw [htail.quotesKept.quotes]
  refine Table.find?_upsert hw.distinct hfind ?_ ?_
  · have hid := eq_of_core (fun c => c.id) hcore (fun _ => rfl)
    exact hid
  · have hsame := eq_of_core (fun c => c.quote.portalToken) hcore (fun _ => rfl)
    exact decide_eq_true (hsame.trans htoken)

/-- A decision that went through was recorded: it found no repetition to answer. -/
theorem recorded_of_succeeds (hdecided : DecidedBefore w)
    (hop : request.operation = .edit (.applyPortalDecision token version action comment))
    (hok : succeeds options w request = true) :
    ∃ q a pairs, w.store.storedByToken token = some q ∧ Loaded w.store q a ∧
      (action = .accepted ∨ action = .declined) ∧ a.quote.version = version ∧ OpenToDecision a ∧
      pairProducts w.store a.lines = .ok pairs ∧
      TailFrame (w.withQuote (savedRecord (request.env options) w.store
        (decisionRecord (request.env options) a action comment) pairs)) (serve options w request) := by
  obtain ⟨-, a, hload, -, hedited⟩ := saved_of_succeeds hop hok
  obtain ⟨haction, hfind, -⟩ := decisionLoad_eq_ok.mp hload
  obtain ⟨q, hfind, hattach⟩ := findByToken_eq_ok.mp hfind
  have hloaded : Loaded w.store q a := ⟨List.mem_of_find?_eq_some hfind, hattach⟩
  have hnew : ¬(a.quote.customerDecision = action ∧ a.quote.customerDecisionVersion = some a.quote.version) := by
    rintro ⟨-, hversion⟩
    rw [hloaded.quote] at hversion
    exact Nat.lt_irrefl _ (hdecided q hloaded.mem _ hversion)
  rcases hedited with ⟨w₁, hedit⟩ | ⟨b, w₁, pairs, hedit, hpairs, htail⟩
  · obtain ⟨-, -, -, hrecord⟩ := decisionEdit_eq_ok.mp hedit
    rw [if_neg hnew] at hrecord
    cases hrecord
  · obtain ⟨hversion, hopen, rfl, hrecord⟩ := decisionEdit_eq_ok.mp hedit
    rw [if_neg hnew] at hrecord
    obtain rfl := Option.some.inj hrecord
    exact ⟨q, a, pairs, hfind, hloaded, haction, hversion, hopen, hpairs, htail⟩

theorem pairProducts_of_products {store store' : Store} (h : store'.products = store.products)
    (lines : List QuoteLine) :
    pairProducts store' lines = pairProducts store lines := by
  induction lines with
  | nil => rfl
  | cons line lines ih => simp only [pairProducts, Store.getProduct, h, ih]

/-- A decision about an open quote that does not have it on record for its version goes through. -/
theorem succeeds_of_open {q a : QuoteAggregate} {pairs : List (QuoteLine × Product)}
    (haction : action = .accepted ∨ action = .declined) (hfind : w.store.storedByToken token = some q)
    (hattach : w.store.attach q = .ok a)
    (hop : request.operation = .edit (.applyPortalDecision token a.quote.version action comment))
    (hopen : OpenToDecision a)
    (hnew : ¬(a.quote.customerDecision = action ∧ a.quote.customerDecisionVersion = some a.quote.version))
    (hpairs : pairProducts w.store a.lines = .ok pairs) : succeeds options w request = true := by
  have hload : (applyPortalDecision (request.env options) token a.quote.version action comment).load w = .ok a w :=
    decisionLoad_eq_ok.mpr ⟨haction, findByToken_eq_ok.mpr ⟨q, hfind, hattach⟩, rfl⟩
  have hedit : (applyPortalDecision (request.env options) token a.quote.version action comment).edit a w
      = .ok (some (decisionRecord (request.env options) a action comment)) w :=
    decisionEdit_eq_ok.mpr ⟨rfl, hopen, rfl, if_neg hnew⟩
  have hlines : (decisionRecord (request.env options) a action comment).lines = a.lines := rfl
  exact succeeds_of_saved hop hload ⟨List.mem_of_find?_eq_some hfind, hattach⟩ hedit (hlines ▸ hpairs)

/-- What a decision is on record as. -/
def QuoteAggregate.onRecord (q : QuoteAggregate) : ℕ × Option ℕ × Option Timestamp :=
  (q.quote.version, q.quote.customerDecisionVersion, q.quote.customerDecisionAt)

/-- A decision that went through finds the quote open to the same decision on its new version, and not recorded
there. -/
theorem succeeds_again (hdecided : DecidedBefore w) (hw : w.Indexed)
    (hop : request.operation = .edit (.applyPortalDecision token version action comment))
    (hok : succeeds options w request = true) :
    ∃ q, (serve options w request).store.storedByToken token = some q ∧
      q.onRecord = (version + 1, some version, some request.outside.now) ∧
      ∀ {again : Request} {comment' : Option String},
        again.operation = .edit (.applyPortalDecision token q.quote.version action comment') →
          succeeds options (serve options w request) again = true := by
  obtain ⟨q, a, pairs, hfind, hloaded, haction, hversion, hopen, hpairs, htail⟩ := recorded_of_succeeds hdecided hop hok
  have hstored := stored_of_saved hw hfind hloaded.attach htail
  refine ⟨_, hstored, ?_, ?_⟩
  · rw [← hversion]
    rfl
  · intro again comment' hagain
    have hcustomer : (w.store.getCustomer a.quote.customerId).isSome := by
      rw [hloaded.quote, hloaded.customer]
      rfl
    obtain ⟨customer, hcustomer⟩ := Option.isSome_iff_exists.mp (htail.customers _ hcustomer)
    have hattach := (attach_eq_ok (q := savedRecord (request.env options) w.store
      (decisionRecord (request.env options) a action comment) pairs)).mpr ⟨customer, hcustomer, rfl⟩
    have hproducts : (serve options w request).store.products = w.store.products := by
      rw [htail.store]
      rfl
    have hpairs' := (pairProducts_of_products hproducts a.lines).trans hpairs
    -- the record names the version before its own
    have hnew : ¬(action = action ∧ some a.quote.version = some (a.quote.version + 1)) :=
      fun h => Nat.ne_of_lt (Nat.lt_succ_self _) (Option.some.inj h.2)
    exact succeeds_of_open haction hstored hattach hagain hopen hnew hpairs'

end Repetition

/-- However a quote came about, a decision that goes through is on record; sent again with the version the quote then
has, it goes through again and puts another version and another time on record. -/
theorem decision_recorded_again {options : Options} {w₀ : World} (hfresh : w₀.Fresh) (requests : List Request)
    {token : Id} {version : ℕ} {action : CustomerDecision} {comment comment' : Option String} {first again : Request}
    (hfirst : first.operation = .edit (.applyPortalDecision token version action comment))
    (hok : succeeds options (serveAll options w₀ requests) first = true)
    (hagain : again.operation = .edit (.applyPortalDecision token (version + 1) action comment')) :
    ∃ q q', (serveAll options w₀ (requests ++ [first])).store.storedByToken token = some q ∧
      (serveAll options w₀ (requests ++ [first, again])).store.storedByToken token = some q' ∧
      q.quote.version = version + 1 ∧
      q.onRecord = (version + 1, some version, some first.outside.now) ∧
      q'.onRecord = (version + 2, some (version + 1), some again.outside.now) := by
  have hrun : serveAll options w₀ (requests ++ [first]) = serve options (serveAll options w₀ requests) first :=
    Machine.run_concat ..
  have hrun' : serveAll options w₀ (requests ++ [first, again])
      = serve options (serve options (serveAll options w₀ requests) first) again := by
    rw [serveAll, Machine.run_append]
    rfl
  have hindexed := hfresh.indexed.serveAll options requests
  have hdecided := hfresh.decidedBefore options requests
  obtain ⟨q, hstored, hrecord, hsucceeds⟩ := succeeds_again hdecided hindexed hfirst hok
  have hversion : q.quote.version = version + 1 := congrArg Prod.fst hrecord
  rw [← hversion] at hagain
  obtain ⟨q', hstored', hrecord', -⟩ :=
    succeeds_again (hdecided.serve options first) (hindexed.serve options first) hagain (hsucceeds hagain)
  rw [hrun, hrun']
  refine ⟨q, q', hstored, hstored', hversion, hrecord, ?_⟩
  rw [hrecord', hversion]

/-- Two gateways, accepted on their first version. -/
def twoGateways : List Request :=
  [{ operation := .createQuote 1 none [{ productId := 11, quantity := 2, discountPercent := 0 }] administrator }]

def acceptance (version : ℕ) : Request :=
  { operation := .edit (.applyPortalDecision 101 version .accepted none) }

theorem twoGateways_recorded_again :
    ∃ q q', (serveAll plainOptions startWorld (twoGateways ++ [acceptance 1])).store.storedByToken 101 = some q ∧
      (serveAll plainOptions startWorld (twoGateways ++ [acceptance 1, acceptance 2])).store.storedByToken 101
        = some q' ∧
      q.quote.version = 2 ∧ q.onRecord = (2, some 1, some 0) ∧ q'.onRecord = (3, some 2, some 0) :=
  @decision_recorded_again _ _ startWorld_fresh twoGateways _ _ _ _ _ (acceptance 1) (acceptance 2) rfl
    (by decide +kernel) rfl

/-- The second acceptance is answered, and recorded on version 2 in place of version 1. -/
theorem acceptance_not_idempotent :
    succeeds plainOptions (serveAll plainOptions startWorld (twoGateways ++ [acceptance 1])) (acceptance 2) = true ∧
      ((serveAll plainOptions startWorld (twoGateways ++ [acceptance 1])).store.storedByToken 101).map
          QuoteAggregate.onRecord = some (2, some 1, some 0) ∧
      ((serveAll plainOptions startWorld (twoGateways ++ [acceptance 1, acceptance 2])).store.storedByToken 101).map
          QuoteAggregate.onRecord = some (3, some 2, some 0) := by
  refine ⟨?_, ?_, ?_⟩
  · decide +kernel
  · decide +kernel
  · decide +kernel

end DealFlow360
