import DealFlow360.QuoteStep

/-!
# Requests side by side

A request that edits a quote loads it, and later checks its copy and saves it
over whatever is stored by then; between the two, other requests take their
steps. The version check reads the copy. So it keeps updates from being lost
exactly where the stored quote still has the version of the copy.

A session is a request that has been loaded or not; a schedule says which
session moves next. `Serial` is the history of a quote, the list of edits that
were saved onto it, each with the copy its edit was made on and what the edit
made of it.

- `Serial.saved`: a save of a copy that is still what is stored makes the
  history one longer;
- `Serial.length` and `Serial.succeeded_iff`: the saves are those of the
  requests that succeeded, once each;
- `Serial.eq_of_version`: no two of them were sent with one version;
- `no_lost_update`: in every interleaving in which each request saves over the
  version it loaded.

`advance_twice` says that a session's two steps in a row are the operation.
-/

namespace DealFlow360

open Program

/-! ## Sessions -/

/-- The version an edit is sent with. -/
def QuoteEdit.expectedVersion : QuoteEdit → Option ℕ
  | addLine _ _ version _ | updateLine _ _ _ version _ | removeLine _ _ version _ => some version
  | applyRecommendation _ _ _ version => some version
  | respondToNegotiation _ _ _ _ version _ | sendNegotiationToManager _ _ version => some version
  | reviseAsManager _ _ version _ | returnRevisedQuote _ _ _ version => some version
  | agreeToFinal _ version | finalizeQuotation _ _ version => some version
  | applyPortalChange _ version _ | applyPortalDecision _ version _ _ => some version
  | planFulfillment _ _ version | generateBilling _ version | cancelBilling _ _ version => some version
  | confirm _ _ version | complete _ version | voidQuote _ _ version => some version
  | submit .. | decide .. | startNegotiation .. => none
  | createNegotiationRequest .. | createPortalNegotiation .. => none

/-- The edit repeats what the quote already has and answers without a save. -/
def QuoteEdit.repeats (a : QuoteAggregate) : QuoteEdit → Bool
  | confirm .. => a.quote.financeLockedAt.isSome
  | applyPortalDecision _ _ action _ =>
      a.quote.customerDecision = action && a.quote.customerDecisionVersion = some a.quote.version
  | _ => false

/-- Where a request stands: with its copy of the quote in hand, or answered for that copy. -/
inductive SessionStage where
  | waiting
  | loaded (copy : QuoteAggregate)
  | answered (copy : QuoteAggregate)
  | refused

structure Session where
  id : ℕ
  edit : QuoteEdit
  outside : Outside := {}
  stage : SessionStage := .waiting

namespace Session

def env (options : Options) (session : Session) : Env where
  options := options
  outside := session.outside

def mutation (options : Options) (session : Session) : Mutation :=
  session.edit.mutation (session.env options)

/-- The next step of a request: the load, then everything after it. -/
def advance (options : Options) (session : Session) (w : World) : SessionStage × World :=
  match session.stage with
  | .waiting =>
      match (session.mutation options).load w with
      | .ok copy w' => (.loaded copy, w')
      | .error _ w' => (.refused, w')
  | .loaded copy =>
      match (session.mutation options).finish (session.env options) copy w with
      | .ok _ w' => (.answered copy, w')
      | .error _ w' => (.refused, w')
  | stage => (stage, w)

/-- The copy a request has in hand. -/
def copy (session : Session) : Option QuoteAggregate :=
  match session.stage with
  | .loaded copy => some copy
  | _ => none

/-- Whether the request succeeded, on the quote of an id. -/
def succeededOn (id : Id) (session : Session) : Bool :=
  match session.stage with
  | .answered copy => copy.id = id
  | _ => false

/-- A request alone: its two steps in a row are the operation. -/
theorem advance_twice (options : Options) (session : Session) (hstage : session.stage = .waiting)
    (w : World) :
    let first := session.advance options w
    (Session.advance options { session with stage := first.1 } first.2).2
      = after ((session.mutation options).run (session.env options)) w := by
  unfold advance Mutation.run
  rw [hstage]
  dsimp only
  cases hload : (session.mutation options).load w with
  | ok copy w' =>
      rw [after_bind_of_ok hload]
      dsimp only [mutation, env] at hload ⊢
      unfold after
      split <;> simp_all
  | error e w' => rw [after_of_error (bind_of_error hload)]

end Session

structure SessionState where
  world : World
  sessions : List Session

namespace SessionState

/-- The request of an id takes its next step. -/
def step (options : Options) (s : SessionState) (id : ℕ) : SessionState :=
  match Table.lookup Session.id id s.sessions with
  | none => s
  | some session =>
      let next := session.advance options s.world
      { world := next.2
        sessions := Table.upsert Session.id { session with stage := next.1 } s.sessions }

abbrev run (options : Options) (s : SessionState) (schedule : List ℕ) : SessionState :=
  Machine.run (step options) s schedule

/-- A request about to save saves over the version it loaded, and repeats nothing. -/
def Isolated (s : SessionState) (id : ℕ) : Prop :=
  ∀ session ∈ Table.lookup Session.id id s.sessions, ∀ copy ∈ session.copy,
    session.edit.repeats copy = false ∧
      ∀ q ∈ s.world.store.quotes, q.id = copy.id → q.quote.version = copy.quote.version

instance (s : SessionState) (id : ℕ) : Decidable (s.Isolated id) :=
  inferInstanceAs (Decidable (∀ session ∈ Table.lookup Session.id id s.sessions,
    ∀ copy ∈ session.copy, session.edit.repeats copy = false ∧
      ∀ q ∈ s.world.store.quotes, q.id = copy.id → q.quote.version = copy.quote.version))

end SessionState

/-! ## What finishing a request does -/

section Finish

variable {env : Env} {op : QuoteEdit} {a : QuoteAggregate} {w w' : World}

theorem version_of_guard {α : Type} {version : ℕ} {rest : PUnit → Service α} {answer : α}
    (h : (assertExpectedVersion a version >>= rest) w = .ok answer w') :
    a.quote.version = version := by
  obtain ⟨_, _, hguard, -⟩ := bind_eq_ok.mp h
  exact (assertExpectedVersion_eq_ok.mp hguard).1

/-- An edit that is sent with a version accepts a copy of that version only. -/
theorem version_of_edit {edited : Option QuoteAggregate} {version : ℕ}
    (hop : op.expectedVersion = some version)
    (h : (op.mutation env).edit a w = .ok edited w') : a.quote.version = version := by
  have hsaving {rest : PUnit → Service QuoteAggregate} {expected : ℕ}
      (h : (some <$> (assertExpectedVersion a expected >>= rest)) w = .ok edited w') :
      a.quote.version = expected := by
    obtain ⟨_, hguarded, -⟩ := map_eq_ok.mp h
    exact version_of_guard hguarded
  cases op with
  | submit => cases hop
  | decide => cases hop
  | startNegotiation => cases hop
  | createNegotiationRequest => cases hop
  | createPortalNegotiation => cases hop
  | confirm =>
      obtain rfl := Option.some.inj hop
      exact version_of_guard h
  | applyPortalDecision =>
      obtain rfl := Option.some.inj hop
      exact version_of_guard h
  | _ =>
      obtain rfl := Option.some.inj hop
      exact hsaving h

/-- Only a repetition answers without a save. -/
theorem repeats_of_edit (h : (op.mutation env).edit a w = .ok none w') : op.repeats a = true := by
  have hsaving {edit : Service QuoteAggregate} (h : (some <$> edit) w = .ok none w') : False := by
    obtain ⟨_, -, hnone⟩ := map_eq_ok.mp h
    cases hnone
  cases op with
  | confirm quoteId actor version =>
      simp only [QuoteEdit.mutation, confirm, bind_eq_ok, throwIf_eq_ok] at h
      obtain ⟨_, _, -, _, _, -, h⟩ := h
      split at h
      · assumption
      · simp only [bind_eq_ok, pure_eq_ok] at h
        obtain ⟨_, _, -, _, _, -, _, _, -, _, _, -, _, _, -, _, _, -, hnone, -⟩ := h
        cases hnone
  | applyPortalDecision token version action comment =>
      simp only [QuoteEdit.mutation, applyPortalDecision, bind_eq_ok, throwIf_eq_ok] at h
      obtain ⟨_, _, -, _, _, -, h⟩ := h
      split at h
      · rename_i hrepeated
        simp only [QuoteEdit.repeats, Bool.and_eq_true, decide_eq_true_eq]
        exact hrepeated
      · obtain ⟨hnone, -⟩ := pure_eq_ok.mp h
        cases hnone
  | createPortalNegotiation token input => exact (hsaving h).elim
  | _ => exact (hsaving h).elim

/-- What a request that succeeds without repeating has done. -/
theorem finish_eq_ok {answer : QuoteAggregate} (hrepeats : op.repeats a = false)
    (h : (op.mutation env).finish env a w = .ok answer w') :
    ∃ b w₁ pairs, (op.mutation env).edit a w = .ok (some b) w₁ ∧
      pairProducts w₁.store b.lines = .ok pairs ∧
        TailFrame (w₁.withQuote (savedRecord env w₁.store b pairs)) w' := by
  simp only [Mutation.finish, bind_eq_ok] at h
  obtain ⟨edited, w₁, hedit, h⟩ := h
  cases edited with
  | none =>
      rw [repeats_of_edit hedit] at hrepeats
      cases hrepeats
  | some b =>
      simp only [bind_eq_ok] at h
      obtain ⟨saved, w₂, hsave, htail⟩ := h
      obtain ⟨pairs, hpairs, rfl, -⟩ := saveAssessed_eq_ok.mp hsave
      exact ⟨b, w₁, pairs, hedit, hpairs, (keeps_tail env op saved).of_ok htail⟩

/-- A request that fails has not touched the quotes. -/
theorem finish_eq_error {e : DomainError}
    (hcustomer : (w.store.getCustomer a.quote.customerId).isSome = true)
    (h : (op.mutation env).finish env a w = .error e w') :
    w'.store.quotes = w.store.quotes ∧ w.nextUuid ≤ w'.nextUuid := by
  have hafter := after_of_error h
  have houtcome := outcome_of_finish env op a w
  rw [hafter] at houtcome
  cases houtcome with
  | failed hedit =>
      have hframe : EditFrame w w' := (keeps_edit env op a).of_error hedit
      exact ⟨by rw [hframe.store], hframe.nextUuid⟩
  | @idle w₁ hedit htail =>
      have hframe : EditFrame w w₁ := (keeps_edit env op a).of_ok hedit
      exact ⟨by rw [htail.quotesKept.quotes, hframe.store], hframe.nextUuid.trans htail.nextUuid⟩
  | unpriced hedit hpairs =>
      have hframe : EditFrame w w' := (keeps_edit env op a).of_ok hedit
      exact ⟨by rw [hframe.store], hframe.nextUuid⟩
  | @saved b w₁ pairs hedit hpairs htail =>
      have hframe : EditFrame w w₁ := (keeps_edit env op a).of_ok hedit
      have hid : b.quote.customerId = a.quote.customerId :=
        congrArg (·.2.1) (change_of_edit op hedit).identity
      obtain ⟨answer, w₂, hok⟩ := finish_returns hedit hpairs (by
        rw [hid, hframe.store]
        exact hcustomer)
      rw [hok] at h
      cases h

/-- Finishing a request keeps every customer id. -/
theorem customers_finish (id : Id) (h : (w.store.getCustomer id).isSome = true) :
    ((after ((op.mutation env).finish env a) w).store.getCustomer id).isSome = true := by
  have hedited {w₁ : World} (hframe : EditFrame w w₁) :
      (w₁.store.getCustomer id).isSome = true := by
    rw [hframe.store]
    exact h
  cases outcome_of_finish env op a w with
  | failed hedit => exact hedited ((keeps_edit env op a).of_error hedit)
  | idle hedit htail => exact htail.customers id (hedited ((keeps_edit env op a).of_ok hedit))
  | unpriced hedit hpairs => exact hedited ((keeps_edit env op a).of_ok hedit)
  | saved hedit hpairs htail =>
      have hcustomer := hedited ((keeps_edit env op a).of_ok hedit)
      exact htail.customers id hcustomer

end Finish

/-! ## What loaded copies are worth -/

/-- A copy of a stored quote: perhaps of an earlier version, but of no other quote of this version. -/
def CopyOf (w : World) (copy : QuoteAggregate) : Prop :=
  (w.store.getCustomer copy.quote.customerId).isSome = true ∧
    ∃ q ∈ w.store.quotes, q.id = copy.id ∧ copy.quote.version ≤ q.quote.version ∧
      (copy.quote.version = q.quote.version → copy.core = q.core)

theorem Loaded.copyOf {w : World} {q a : QuoteAggregate} (h : Loaded w.store q a) : CopyOf w a := by
  have hquote := h.quote
  refine ⟨?_, q, h.mem, ?_, ?_, fun _ => h.core⟩
  · rw [hquote]
    exact Option.isSome_iff_exists.mpr ⟨_, h.customer⟩
  · exact (congrArg Quote.id hquote).symm
  · rw [hquote]

/-- The quotes have distinct ids, the requests too, and every copy is one of a stored quote. -/
structure SessionState.Coherent (s : SessionState) : Prop where
  indexed : s.world.Indexed
  distinct : Table.Distinct Session.id s.sessions
  copies : ∀ session ∈ s.sessions, ∀ copy, session.stage = .loaded copy → CopyOf s.world copy

/-- What the next step of a request can be. -/
inductive Stepped (options : Options) (session : Session) (w : World) : SessionStage → World → Prop
  | loaded {q copy} (hstage : session.stage = .waiting) (hq : Loaded w.store q copy) :
      Stepped options session w (.loaded copy) w
  | answered {copy b w₁ w' pairs} (hstage : session.stage = .loaded copy)
      (hedit : (session.mutation options).edit copy w = .ok (some b) w₁)
      (hpairs : pairProducts w₁.store b.lines = .ok pairs)
      (htail : TailFrame (w₁.withQuote (savedRecord (session.env options) w₁.store b pairs)) w')
      (hcustomers : ∀ id, (w.store.getCustomer id).isSome = true →
        (w'.store.getCustomer id).isSome = true) :
      Stepped options session w (.answered copy) w'
  | kept {stage w'} (hquotes : w'.store.quotes = w.store.quotes) (hnext : w.nextUuid ≤ w'.nextUuid)
      (hcustomers : ∀ id, (w.store.getCustomer id).isSome = true →
        (w'.store.getCustomer id).isSome = true)
      (hfailed : stage = .refused ∧ (session.stage = .waiting ∨ ∃ copy, session.stage = .loaded copy) ∨
        stage = session.stage) :
      Stepped options session w stage w'

theorem stepped (options : Options) {session : Session} {w : World}
    (hcopy : ∀ copy, session.stage = .loaded copy →
      CopyOf w copy ∧ session.edit.repeats copy = false) :
    Stepped options session w (session.advance options w).1 (session.advance options w).2 := by
  unfold Session.advance
  cases hstage : session.stage with
  | waiting =>
      dsimp only
      cases hload : (session.mutation options).load w with
      | ok copy w' =>
          obtain ⟨rfl, q, hq⟩ := loaded_of_edit hload
          exact .loaded hstage hq
      | error e w' =>
          have hload' : (session.edit.mutation (session.env options)).load w = .error e w' := hload
          have hworld : w = w' := Keeps.of_error hload'
          rw [← hworld]
          exact .kept rfl le_rfl (fun _ h => h) (.inl ⟨rfl, .inl hstage⟩)
  | loaded copy =>
      obtain ⟨⟨hcustomer, -⟩, hrepeats⟩ := hcopy copy hstage
      have hcustomers (id : Id) (h : (w.store.getCustomer id).isSome = true) :
          ((after ((session.mutation options).finish (session.env options) copy) w).store.getCustomer
            id).isSome = true := customers_finish id h
      dsimp only
      cases hfinish : (session.mutation options).finish (session.env options) copy w with
      | ok answer w' =>
          rw [after_of_ok hfinish] at hcustomers
          obtain ⟨b, w₁, pairs, hedit, hpairs, htail⟩ := finish_eq_ok hrepeats hfinish
          exact .answered hstage hedit hpairs htail hcustomers
      | error e w' =>
          rw [after_of_error hfinish] at hcustomers
          obtain ⟨hquotes, hnext⟩ := finish_eq_error hcustomer hfinish
          exact .kept hquotes hnext hcustomers (.inl ⟨rfl, .inr ⟨copy, hstage⟩⟩)
  | answered copy => exact .kept rfl le_rfl (fun _ h => h) (.inr hstage.symm)
  | refused => exact .kept rfl le_rfl (fun _ h => h) (.inr hstage.symm)

/-! ## The history of a quote -/

/-- The requests that saved a quote since it was `q₀`, each as it stood before its save, and the quote
they made of it: each loaded what the one before it stored, at the version it was sent with, and stored
what its edit answered for that copy. -/
inductive History (options : Options) (q₀ : QuoteAggregate) : List Session → QuoteAggregate → Prop
  | start : History options q₀ [] q₀
  | save {log q session copy b w w' pairs} (hlog : History options q₀ log q)
      (hstage : session.stage = .loaded copy) (hcopy : copy.core = q.core)
      (hversion : ∀ version, session.edit.expectedVersion = some version →
        copy.quote.version = version)
      (hedit : (session.mutation options).edit copy w = .ok (some b) w')
      (hpairs : pairProducts w'.store b.lines = .ok pairs) :
      History options q₀ (log ++ [session]) (savedRecord (session.env options) w'.store b pairs)

namespace History

variable {options : Options} {q₀ q : QuoteAggregate} {log : List Session}

theorem id (h : History options q₀ log q) : q.id = q₀.id := by
  induction h with
  | start => rfl
  | @save log q session copy b w w' pairs hlog hstage hcopy hversion hedit hpairs ih =>
      have hchange : Change (session.env options) w w' copy b session.edit := change_of_edit _ hedit
      have hid := hchange.identity.trans (eq_of_core QuoteAggregate.identity hcopy (fun _ => rfl))
      exact (congrArg (·.1) hid).trans ih

/-- The version counts the saves. -/
theorem version (h : History options q₀ log q) :
    q.quote.version = q₀.quote.version + log.length := by
  induction h with
  | start => rfl
  | @save log q session copy b w w' pairs hlog hstage hcopy hversion hedit hpairs ih =>
      have hchange : Change (session.env options) w w' copy b session.edit := change_of_edit _ hedit
      have hcopied := eq_of_core (fun c => c.quote.version) hcopy (fun _ => rfl)
      show b.quote.version = _
      rw [hchange.version, hcopied, ih, List.length_append, List.length_singleton, add_assoc]

/-- No two saves were sent with one version. -/
theorem versions (h : History options q₀ log q)
    (hversioned : ∀ session ∈ log, session.edit.expectedVersion.isSome = true) :
    log.map (·.edit.expectedVersion)
      = (List.range' q₀.quote.version log.length).map some := by
  induction h with
  | start => rfl
  | @save log q session copy b w w' pairs hlog hstage hcopy hversion hedit hpairs ih =>
      have hsent := hversioned session (List.mem_append_right _ (List.mem_singleton_self _))
      obtain ⟨version, hsent⟩ := Option.isSome_iff_exists.mp hsent
      have hcopied := eq_of_core (fun c => c.quote.version) hcopy (fun _ => rfl)
      rw [hversion version hsent, hlog.version] at hcopied
      rw [List.map_append, ih fun other hother => hversioned other (List.mem_append_left _ hother),
        List.length_append, List.length_singleton, List.range'_concat, List.map_append, List.map_singleton,
        List.map_singleton, hsent, hcopied, one_mul]

end History

/-! ## Steps -/

section Steps

variable {options : Options} {s : SessionState} {session : Session} {stage : SessionStage}
  {w' : World} {copy b : QuoteAggregate} {w₁ : World} {pairs : List (QuoteLine × Product)}

/-- One request moved on, in a world that may have moved with it. -/
abbrev SessionState.moved (s : SessionState) (session : Session) (stage : SessionStage) (w' : World) :
    SessionState where
  world := w'
  sessions := Table.upsert Session.id { session with stage } s.sessions

theorem mem_moved (hd : Table.Distinct Session.id s.sessions) {other : Session} :
    other ∈ (s.moved session stage w').sessions ↔
      other = { session with stage } ∨ other ∈ s.sessions ∧ other.id ≠ session.id :=
  Table.mem_upsert_iff hd

theorem CopyOf.of_quotes {w : World} (h : CopyOf w copy) (hquotes : w'.store.quotes = w.store.quotes)
    (hcustomers : ∀ id, (w.store.getCustomer id).isSome = true →
      (w'.store.getCustomer id).isSome = true) : CopyOf w' copy := by
  unfold CopyOf
  rw [hquotes]
  exact ⟨hcustomers _ h.1, h.2⟩

/-- What a successful request stores: the next version of the quote it loaded. -/
structure Saves (options : Options) (w : World) (session : Session) (copy q record : QuoteAggregate)
    (w' : World) : Prop where
  mem : q ∈ w.store.quotes
  core : copy.core = q.core
  id : record.id = q.id
  version : record.quote.version = q.quote.version + 1
  history : ∀ {q₀ log}, session.stage = .loaded copy → History options q₀ log q →
    History options q₀ (log ++ [session]) record
  quotes : w'.store.quotes = Table.upsert QuoteAggregate.id record w.store.quotes
  nextUuid : w.nextUuid ≤ w'.nextUuid

theorem saves_of_answered {w : World} (hcopy : CopyOf w copy)
    (hversion : ∀ q ∈ w.store.quotes, q.id = copy.id → q.quote.version = copy.quote.version)
    (hedit : (session.mutation options).edit copy w = .ok (some b) w₁)
    (hpairs : pairProducts w₁.store b.lines = .ok pairs)
    (htail : TailFrame (w₁.withQuote (savedRecord (session.env options) w₁.store b pairs)) w') :
    ∃ q, Saves options w session copy q (savedRecord (session.env options) w₁.store b pairs) w' := by
  obtain ⟨-, q, hq, hid, hle, hcore⟩ := hcopy
  have hsame := hcore (hversion q hq hid).symm
  have hchange : Change (session.env options) w w₁ copy b session.edit := change_of_edit _ hedit
  have hframe : EditFrame w w₁ := (keeps_edit _ session.edit copy).of_ok hedit
  refine ⟨q, hq, hsame, ?_, ?_, fun hstage hlog => ?_, quotes_of_saved hframe htail, ?_⟩
  · exact hchange.id.trans hid.symm
  · exact hchange.version.trans (congrArg (· + 1) (hversion q hq hid).symm)
  · exact .save hlog hstage hsame (fun version hsent => version_of_edit hsent hedit) hedit hpairs
  · exact hframe.nextUuid.trans htail.nextUuid

theorem CopyOf.saved {w : World} (hw : w.Indexed) {other q record : QuoteAggregate}
    (h : CopyOf w other) (hsaves : Saves options w session copy q record w')
    (hcustomers : ∀ id, (w.store.getCustomer id).isSome = true →
      (w'.store.getCustomer id).isSome = true) : CopyOf w' other := by
  obtain ⟨hcustomer, q', hq', hid, hle, hcore⟩ := h
  refine ⟨hcustomers _ hcustomer, ?_⟩
  rw [hsaves.quotes]
  by_cases hsame : q'.id = q.id
  · obtain rfl := hw.eq_of_id hq' hsaves.mem hsame
    have hversion := hsaves.version
    refine ⟨record, Table.mem_upsert_self _ _, hsaves.id.trans hid, by omega, fun heq => ?_⟩
    omega
  · refine ⟨q', Table.mem_upsert_of_ne hq' ?_, hid, hle, hcore⟩
    rw [hsaves.id]
    exact hsame

theorem SessionState.Coherent.moved (h : s.Coherent) (hindexed : w'.Indexed)
    (hcopies : ∀ copy, CopyOf s.world copy → CopyOf w' copy)
    (hstage : ∀ copy, stage = .loaded copy → CopyOf w' copy) : (s.moved session stage w').Coherent where
  indexed := hindexed
  distinct := Table.distinct_upsert h.distinct _
  copies other hother copy hcopy := by
    rcases (mem_moved h.distinct).mp hother with rfl | ⟨hother, -⟩
    · exact hstage copy hcopy
    · exact hcopies copy (h.copies other hother copy hcopy)

theorem Indexed.of_quotes {w : World} (h : w.Indexed) (hquotes : w'.store.quotes = w.store.quotes)
    (hnext : w.nextUuid ≤ w'.nextUuid) : w'.Indexed where
  distinct := by
    rw [hquotes]
    exact h.distinct
  fresh := by
    rw [hquotes]
    exact fun q hq => (h.fresh q hq).trans_le hnext

theorem Saves.indexed {w : World} (hw : w.Indexed) {q record : QuoteAggregate}
    (h : Saves options w session copy q record w') : w'.Indexed where
  distinct := by
    rw [h.quotes]
    exact Table.distinct_upsert hw.distinct _
  fresh q' hq' := by
    rw [h.quotes] at hq'
    rcases Table.mem_upsert hq' with rfl | hq'
    · rw [h.id]
      exact (hw.fresh q h.mem).trans_le h.nextUuid
    · exact (hw.fresh q' hq').trans_le h.nextUuid

/-- The history of the quote stored first as `q₀`: its saves are the requests that succeeded on it. -/
structure Serial (options : Options) (q₀ : QuoteAggregate) (s : SessionState) (log : List Session)
    (q : QuoteAggregate) : Prop where
  mem : q ∈ s.world.store.quotes
  history : History options q₀ log q
  unique : (log.map (·.id)).Nodup
  succeeded : ∀ other ∈ s.sessions, other.succeededOn q₀.id = true ↔ other.id ∈ log.map (·.id)
  recorded : ∀ saved ∈ log, ∃ other ∈ s.sessions, other.id = saved.id ∧ other.edit = saved.edit

variable {q₀ q : QuoteAggregate} {log : List Session}

theorem Serial.recorded_moved (h : Serial options q₀ s log q)
    (hd : Table.Distinct Session.id s.sessions) (hsession : session ∈ s.sessions) :
    ∀ saved ∈ log, ∃ other ∈ (s.moved session stage w').sessions,
      other.id = saved.id ∧ other.edit = saved.edit := by
  intro saved hsaved
  obtain ⟨other, hother, hid, hedit⟩ := h.recorded saved hsaved
  by_cases hsame : other.id = session.id
  · have hlookup := Table.lookup_of_mem hd hother
    rw [hsame, Table.lookup_of_mem hd hsession] at hlookup
    obtain rfl := Option.some.inj hlookup
    exact ⟨_, (mem_moved hd).mpr (.inl rfl), hid, hedit⟩
  · exact ⟨other, (mem_moved hd).mpr (.inr ⟨hother, hsame⟩), hid, hedit⟩

/-- A step that saves nothing of the quote keeps its history. -/
theorem Serial.moved (h : Serial options q₀ s log q) (hd : Table.Distinct Session.id s.sessions)
    (hsession : session ∈ s.sessions) (hmem : q ∈ w'.store.quotes)
    (hsame : Session.succeededOn q₀.id { session with stage } = session.succeededOn q₀.id) :
    Serial options q₀ (s.moved session stage w') log q where
  mem := hmem
  history := h.history
  unique := h.unique
  succeeded other hother := by
    rcases (mem_moved hd).mp hother with rfl | ⟨hother, -⟩
    · rw [hsame]
      exact h.succeeded session hsession
    · exact h.succeeded other hother
  recorded := h.recorded_moved hd hsession

/-- A save of the quote makes its history one longer. -/
theorem Serial.saved (h : Serial options q₀ s log q) (hd : Table.Distinct Session.id s.sessions)
    (hsession : session ∈ s.sessions) (hstage : session.stage = .loaded copy) {record : QuoteAggregate}
    (hid : copy.id = q₀.id) (hsaves : Saves options s.world session copy q record w') :
    Serial options q₀ (s.moved session (.answered copy) w') (log ++ [session]) record where
  mem := by
    rw [hsaves.quotes]
    exact Table.mem_upsert_self _ _
  history := hsaves.history hstage h.history
  unique := by
    have hnew : session.id ∉ log.map (·.id) := by
      rw [← h.succeeded session hsession, Session.succeededOn, hstage]
      exact Bool.false_ne_true
    rw [List.map_append, List.nodup_append]
    refine ⟨h.unique, List.nodup_singleton _, fun id hmem id' hmem' heq => hnew ?_⟩
    rw [show session.id = id' from (List.mem_singleton.mp hmem').symm, ← heq]
    exact hmem
  succeeded other hother := by
    rw [List.map_append, List.mem_append]
    rcases (mem_moved hd).mp hother with rfl | ⟨hother, hne⟩
    · refine ⟨fun _ => .inr (List.mem_singleton_self _), fun _ => ?_⟩
      show decide (copy.id = q₀.id) = true
      exact decide_eq_true hid
    · rw [h.succeeded other hother]
      refine ⟨.inl, fun hmem => hmem.resolve_right fun hmem => hne ?_⟩
      exact List.mem_singleton.mp hmem
  recorded saved hsaved := by
    rcases List.mem_append.mp hsaved with hsaved | hsaved
    · exact h.recorded_moved hd hsession saved hsaved
    · obtain rfl := List.mem_singleton.mp hsaved
      exact ⟨_, (mem_moved hd).mpr (.inl rfl), rfl, rfl⟩

theorem SessionState.Coherent.step (h : s.Coherent) (hserial : Serial options q₀ s log q) {id : ℕ}
    (hisolated : s.Isolated id) :
    (s.step options id).Coherent ∧ ∃ log q, Serial options q₀ (s.step options id) log q := by
  unfold SessionState.step
  cases hlookup : Table.lookup Session.id id s.sessions with
  | none => exact ⟨h, log, q, hserial⟩
  | some session =>
      have hsession : session ∈ s.sessions := Table.mem_of_lookup hlookup
      have hcopies (copy : QuoteAggregate) (hstage : session.stage = .loaded copy) :
          CopyOf s.world copy ∧ session.edit.repeats copy = false ∧
            ∀ q ∈ s.world.store.quotes, q.id = copy.id → q.quote.version = copy.quote.version := by
        have hcopy : copy ∈ session.copy := by
          unfold Session.copy
          rw [hstage]
          rfl
        exact ⟨h.copies session hsession copy hstage, hisolated session hlookup copy hcopy⟩
      have hstepped := stepped options fun copy hstage =>
        ⟨(hcopies copy hstage).1, (hcopies copy hstage).2.1⟩
      dsimp only
      generalize session.advance options s.world = next at hstepped
      obtain ⟨stage, w'⟩ := next
      cases hstepped with
      | @loaded q' copy hstage hq =>
          refine ⟨h.moved h.indexed (fun _ hcopy => hcopy) fun other hother => ?_, log, q,
            hserial.moved h.distinct hsession hserial.mem ?_⟩
          · obtain rfl := SessionStage.loaded.inj hother
            exact hq.copyOf
          · simp [Session.succeededOn, hstage]
      | @answered copy b w₁ w' pairs hstage hedit hpairs htail hcustomers =>
          obtain ⟨hcopy, -, hversion⟩ := hcopies copy hstage
          obtain ⟨q', hsaves⟩ := saves_of_answered hcopy hversion hedit hpairs htail
          refine ⟨h.moved (hsaves.indexed h.indexed)
            (fun other hother => hother.saved h.indexed hsaves hcustomers)
            (fun _ heq => by cases heq), ?_⟩
          have hid : copy.id = q'.id := eq_of_core QuoteAggregate.id hsaves.core (fun _ => rfl)
          by_cases hsame : copy.id = q₀.id
          · have heq : q'.id = q.id := (hid.symm.trans hsame).trans hserial.history.id.symm
            obtain rfl := h.indexed.eq_of_id hsaves.mem hserial.mem heq
            exact ⟨_, _, hserial.saved h.distinct hsession hstage hsame hsaves⟩
          · refine ⟨log, q, hserial.moved h.distinct hsession ?_ ?_⟩
            · rw [hsaves.quotes]
              refine Table.mem_upsert_of_ne hserial.mem ?_
              rw [hsaves.id, ← hid, hserial.history.id]
              exact fun heq => hsame heq.symm
            · simp [Session.succeededOn, hstage, hsame]
      | kept hquotes hnext hcustomers hfailed =>
          refine ⟨h.moved (Indexed.of_quotes h.indexed hquotes hnext)
            (fun _ hcopy => hcopy.of_quotes hquotes hcustomers) ?_, log, q,
            hserial.moved h.distinct hsession ?_ ?_⟩
          · intro copy hstage
            rcases hfailed with ⟨rfl, -⟩ | rfl
            · cases hstage
            · exact (h.copies session hsession copy hstage).of_quotes hquotes hcustomers
          · rw [hquotes]
            exact hserial.mem
          · rcases hfailed with ⟨rfl, hwaiting | ⟨copy, hloaded⟩⟩ | rfl
            · simp [Session.succeededOn, hwaiting]
            · simp [Session.succeededOn, hloaded]
            · rfl

end Steps

/-! ## Runs -/

/-- A step leaves what the requests ask for. -/
theorem versioned_step {options : Options} {s : SessionState}
    (h : ∀ session ∈ s.sessions, session.edit.expectedVersion.isSome = true) (id : ℕ) :
    ∀ session ∈ (s.step options id).sessions, session.edit.expectedVersion.isSome = true := by
  unfold SessionState.step
  cases hlookup : Table.lookup Session.id id s.sessions with
  | none => exact h
  | some session =>
      intro other hother
      rcases Table.mem_upsert hother with rfl | hother
      · exact h session (Table.mem_of_lookup hlookup)
      · exact h other hother

/-- Sessions of distinct ids none of which has started, in a store of distinct quotes. -/
theorem coherent_start {w : World} (hw : w.Indexed) {sessions : List Session}
    (hdistinct : Table.Distinct Session.id sessions)
    (hwaiting : ∀ session ∈ sessions, session.stage = .waiting) :
    SessionState.Coherent ⟨w, sessions⟩ where
  indexed := hw
  distinct := hdistinct
  copies session hsession copy hcopy := by
    rw [hwaiting session hsession] at hcopy
    cases hcopy

theorem serial_start {options : Options} {w : World} {sessions : List Session} {q₀ : QuoteAggregate}
    (hq₀ : q₀ ∈ w.store.quotes) (hwaiting : ∀ session ∈ sessions, session.stage = .waiting) :
    Serial options q₀ ⟨w, sessions⟩ [] q₀ where
  mem := hq₀
  history := .start
  unique := List.nodup_nil
  succeeded session hsession := by
    rw [Session.succeededOn, hwaiting session hsession]
    exact ⟨fun h => (Bool.false_ne_true h).elim, fun h => absurd h List.not_mem_nil⟩
  recorded saved hsaved := absurd hsaved List.not_mem_nil

/-- The saves of a history are as many as the requests that succeeded. -/
theorem Serial.length {options : Options} {s : SessionState} {q₀ q : QuoteAggregate}
    {log : List Session} (h : Serial options q₀ s log q)
    (hd : Table.Distinct Session.id s.sessions) :
    log.length = s.sessions.countP (·.succeededOn q₀.id) := by
  have hcount : ((s.sessions.filter (·.succeededOn q₀.id)).map (·.id)).Perm (log.map (·.id)) := by
    refine (List.perm_ext_iff_of_nodup (Table.distinct_filter hd _) h.unique).mpr fun id => ?_
    constructor
    · intro hid
      obtain ⟨session, hsession, rfl⟩ := List.mem_map.mp hid
      obtain ⟨hsession, hsucceeded⟩ := List.mem_filter.mp hsession
      exact (h.succeeded session hsession).mp hsucceeded
    · intro hid
      obtain ⟨saved, hsaved, rfl⟩ := List.mem_map.mp hid
      obtain ⟨session, hsession, hsame, -⟩ := h.recorded saved hsaved
      rw [← hsame]
      refine List.mem_map_of_mem (List.mem_filter.mpr ⟨hsession, ?_⟩)
      rw [h.succeeded session hsession, hsame]
      exact List.mem_map_of_mem hsaved
  have hlength := hcount.length_eq
  rw [List.length_map, List.length_map] at hlength
  rw [List.countP_eq_length_filter]
  exact hlength.symm

/-- A request succeeded exactly if its edit is in the history. -/
theorem Serial.succeeded_iff {options : Options} {s : SessionState} {q₀ q : QuoteAggregate}
    {log : List Session} (h : Serial options q₀ s log q)
    (hd : Table.Distinct Session.id s.sessions) {session : Session} (hsession : session ∈ s.sessions) :
    session.succeededOn q₀.id = true ↔
      ∃ saved ∈ log, saved.id = session.id ∧ saved.edit = session.edit := by
  rw [h.succeeded session hsession]
  constructor
  · intro hmem
    obtain ⟨saved, hsaved, hid⟩ := List.mem_map.mp hmem
    obtain ⟨found, hfound, hfoundId, hedit⟩ := h.recorded saved hsaved
    have hlookup := Table.lookup_of_mem hd hfound
    rw [hfoundId, hid, Table.lookup_of_mem hd hsession] at hlookup
    obtain rfl := Option.some.inj hlookup
    exact ⟨saved, hsaved, hid, hedit.symm⟩
  · rintro ⟨saved, hsaved, hid, -⟩
    rw [← hid]
    exact List.mem_map_of_mem hsaved

/-- Of the requests that succeeded on a quote no two were sent with one version. -/
theorem Serial.eq_of_version {options : Options} {s : SessionState} {q₀ q : QuoteAggregate}
    {log : List Session} (h : Serial options q₀ s log q)
    (hd : Table.Distinct Session.id s.sessions)
    (hversioned : ∀ session ∈ s.sessions, session.edit.expectedVersion.isSome = true)
    {one other : Session} (hone : one ∈ s.sessions) (hother : other ∈ s.sessions)
    (hsucceeded : one.succeededOn q₀.id = true) (hsucceeded' : other.succeededOn q₀.id = true)
    (hsame : one.edit.expectedVersion = other.edit.expectedVersion) : one = other := by
  have hsent : ∀ saved ∈ log, saved.edit.expectedVersion.isSome = true := by
    intro saved hsaved
    obtain ⟨found, hfound, -, hedit⟩ := h.recorded saved hsaved
    rw [← hedit]
    exact hversioned found hfound
  have hversions : (log.map (·.edit.expectedVersion)).Nodup := by
    rw [h.history.versions hsent]
    exact (List.nodup_range' ..).map (Option.some_injective _)
  obtain ⟨saved, hmem, hid, hedit⟩ := (h.succeeded_iff hd hone).mp hsucceeded
  obtain ⟨saved', hmem', hid', hedit'⟩ := (h.succeeded_iff hd hother).mp hsucceeded'
  rw [← hedit, ← hedit'] at hsame
  obtain rfl := List.inj_on_of_nodup_map hversions hmem hmem' hsame
  have hlookup := Table.lookup_of_mem hd hone
  rw [← hid, hid', Table.lookup_of_mem hd hother] at hlookup
  exact (Option.some.inj hlookup).symm

/-- However requests that are sent with a version are interleaved, if each saves over the version it
loaded and repeats nothing, then of those sent with one version at most one succeeds on a quote, and
the stored quote is what the edits of the successful ones made of it, each starting where the one before it
ended and each counted once by the version. -/
theorem no_lost_update (options : Options) (w₀ : World) (hw : w₀.Indexed) (sessions : List Session)
    (hdistinct : Table.Distinct Session.id sessions)
    (hwaiting : ∀ session ∈ sessions, session.stage = .waiting)
    (hversioned : ∀ session ∈ sessions, session.edit.expectedVersion.isSome = true)
    (schedule : List ℕ)
    (hisolated : Machine.Meets (SessionState.step options) SessionState.Isolated ⟨w₀, sessions⟩
      schedule) :
    let s := SessionState.run options ⟨w₀, sessions⟩ schedule
    ∀ q₀ ∈ w₀.store.quotes,
      (∀ one ∈ s.sessions, ∀ other ∈ s.sessions, one.succeededOn q₀.id = true →
        other.succeededOn q₀.id = true →
          one.edit.expectedVersion = other.edit.expectedVersion → one = other) ∧
        ∃ q ∈ s.world.store.quotes, ∃ log, History options q₀ log q ∧
          (∀ session ∈ s.sessions, session.succeededOn q₀.id = true ↔
            ∃ saved ∈ log, saved.id = session.id ∧ saved.edit = session.edit) ∧
          q.quote.version = q₀.quote.version + s.sessions.countP (·.succeededOn q₀.id) := by
  intro s q₀ hq₀
  have hstep (s : SessionState) (id : ℕ)
      (h : (s.Coherent ∧ ∃ log q, Serial options q₀ s log q) ∧
        ∀ session ∈ s.sessions, session.edit.expectedVersion.isSome = true)
      (hisolated : s.Isolated id) :
      ((s.step options id).Coherent ∧ ∃ log q, Serial options q₀ (s.step options id) log q) ∧
        ∀ session ∈ (s.step options id).sessions, session.edit.expectedVersion.isSome = true := by
    obtain ⟨⟨hcoherent, log, q, hserial⟩, hversioned⟩ := h
    exact ⟨hcoherent.step hserial hisolated, versioned_step hversioned id⟩
  have hstart : SessionState.Coherent ⟨w₀, sessions⟩ ∧
      ∃ log q, Serial options q₀ ⟨w₀, sessions⟩ log q :=
    ⟨coherent_start hw hdistinct hwaiting, [], q₀, serial_start hq₀ hwaiting⟩
  have hend := Machine.invariant_of_meets hstep ⟨hstart, hversioned⟩ hisolated
  obtain ⟨⟨hcoherent, log, q, hserial⟩, hversioned⟩ := hend
  refine ⟨fun one hone other hother hsucceeded hsucceeded' hsame =>
    hserial.eq_of_version hcoherent.distinct hversioned hone hother hsucceeded hsucceeded' hsame,
    q, hserial.mem, log, hserial.history, fun session hsession =>
      hserial.succeeded_iff hcoherent.distinct hsession, ?_⟩
  rw [hserial.history.version, hserial.length hcoherent.distinct]

/-- A draft with a line of gateways, as `createQuote` stores it. -/
def draftWorld : World :=
  serveAll plainOptions startWorld
    [{ operation := .createQuote 1 none [{ productId := 11, quantity := 2, discountPercent := 0 }]
         administrator }]

/-- Two more lines are asked for at the version of the draft. -/
def twoLines : List Session :=
  [{ id := 0
     edit := .addLine 100 { productId := 12, quantity := 1, discountPercent := 0 } 1 administrator },
   { id := 1
     edit := .addLine 100 { productId := 13, quantity := 1, discountPercent := 0 } 1 administrator }]

/-- One after the other, the second is refused. -/
theorem no_lost_update_in_turn :
    let s := SessionState.run plainOptions ⟨draftWorld, twoLines⟩ [0, 0, 1, 1]
    ∀ q₀ ∈ draftWorld.store.quotes,
      (∀ one ∈ s.sessions, ∀ other ∈ s.sessions, one.succeededOn q₀.id = true →
        other.succeededOn q₀.id = true →
          one.edit.expectedVersion = other.edit.expectedVersion → one = other) ∧
        ∃ q ∈ s.world.store.quotes, ∃ log, History plainOptions q₀ log q ∧
          (∀ session ∈ s.sessions, session.succeededOn q₀.id = true ↔
            ∃ saved ∈ log, saved.id = session.id ∧ saved.edit = session.edit) ∧
          q.quote.version = q₀.quote.version + s.sessions.countP (·.succeededOn q₀.id) := by
  have hdistinct : Table.Distinct Session.id twoLines := by
    unfold Table.Distinct
    decide
  have hwaiting : ∀ session ∈ twoLines, session.stage = .waiting := by simp [twoLines]
  have hversioned : ∀ session ∈ twoLines, session.edit.expectedVersion.isSome = true := by
    simp [twoLines, QuoteEdit.expectedVersion]
  exact no_lost_update plainOptions draftWorld (startWorld_fresh.indexed.serveAll _ _) twoLines hdistinct
    hwaiting hversioned _ (by decide +kernel)

/-- Both load the draft before either saves: both succeed, and the first line is gone. -/
theorem line_lost :
    let s := SessionState.run plainOptions ⟨draftWorld, twoLines⟩ [0, 1, 0, 1]
    (∀ session ∈ s.sessions, session.succeededOn 100 = true ∧ session.edit.expectedVersion = some 1) ∧
      ∃ q ∈ s.world.store.quotes, q.id = 100 ∧ q.quote.version = 2 ∧
        ∀ line ∈ q.lines, line.productId ≠ 12 := by
  decide +kernel

end DealFlow360
