import DealFlow360.QuoteLines

/-!
# Cancelled billing schedules

A cancelled schedule records what is refunded. Billing a quote again makes all
its schedules anew, also while the quote is already in billing, and the
cancelled ones go with the rest. Every other request leaves them alone, so they
stay in every run that bills no quote again after a cancellation.

Schedules are looked at edit by edit. `Reschedules` says what an edit can do to
the schedules of its quote, and only billing the quote makes them anew; a
cancellation changes one schedule, once, and writes what it refunds.

- `cancelled_of_serve`: what a served cancellation leaves;
- `Has.serve`: every request but a billing of the quote keeps it;
- `cancelled_billing_stays`: every run, by induction on its requests;
- `standing_of_billing`: a billing leaves no cancelled schedule, so the
  condition of the run is the right one.
-/

namespace DealFlow360

open Program

/-! ## What the engine makes -/

/-- Schedules with ids of their own, one a line. -/
structure SchedulesApart (q : QuoteAggregate) : Prop where
  ids : (q.schedules.map (·.id)).Nodup
  lines : (q.schedules.map (·.quoteLineId)).Nodup

namespace Billing

theorem buildSchedule_eq_ok {fl : Rounding} {id quoteId : Id} {now : Timestamp} {products : List Product}
    {line : QuoteLine} {schedule : BillingSchedule}
    (h : buildSchedule fl id quoteId now products line = .ok schedule) :
    schedule.id = id ∧ schedule.quoteLineId = line.id ∧ schedule.status ≠ .cancelled := by
  unfold buildSchedule at h
  split at h
  · cases h
  · dsimp only at h
    split at h
    · obtain rfl := Except.ok.inj h
      exact ⟨rfl, rfl, by simp⟩
    · obtain rfl := Except.ok.inj h
      exact ⟨rfl, rfl, by simp⟩

section Build

variable {fl : Rounding} {uuid : ℕ → Id} {quoteId : Id} {now : Timestamp} {lines : List QuoteLine}
  {products : List Product} {schedules : List BillingSchedule}

theorem buildBillingSchedules_ids
    (h : buildBillingSchedules fl uuid quoteId now lines products = .ok schedules) :
    schedules.map (·.id) = (List.range' 0 lines.length).map uuid :=
  calc schedules.map (·.id)
      = lines.zipIdx.map (fun entry => uuid entry.2) :=
        except_mapM_map (fun _ _ hok => (buildSchedule_eq_ok hok).1) h
    _ = (lines.zipIdx.map Prod.snd).map uuid := by rw [List.map_map]; rfl
    _ = (List.range' 0 lines.length).map uuid := by rw [List.zipIdx_map_snd]

theorem buildBillingSchedules_lines
    (h : buildBillingSchedules fl uuid quoteId now lines products = .ok schedules) :
    schedules.map (·.quoteLineId) = lines.map (·.id) :=
  calc schedules.map (·.quoteLineId)
      = lines.zipIdx.map (fun entry => entry.1.id) :=
        except_mapM_map (fun _ _ hok => (buildSchedule_eq_ok hok).2.1) h
    _ = (lines.zipIdx.map Prod.fst).map (·.id) := by rw [List.map_map]; rfl
    _ = lines.map (·.id) := by rw [List.zipIdx_map_fst]

/-- A schedule just built is never a cancelled one. -/
theorem buildBillingSchedules_standing
    (h : buildBillingSchedules fl uuid quoteId now lines products = .ok schedules) :
    ∀ schedule ∈ schedules, schedule.status ≠ .cancelled := by
  have hnone : schedules.map (fun schedule => decide (schedule.status = .cancelled))
      = lines.zipIdx.map fun _ => false :=
    except_mapM_map (fun _ _ hok => decide_eq_false (buildSchedule_eq_ok hok).2.2) h
  intro schedule hschedule hcancelled
  have hmem := List.mem_map_of_mem (f := fun schedule => decide (schedule.status = .cancelled)) hschedule
  rw [hnone, decide_eq_true hcancelled] at hmem
  obtain ⟨entry, -, hfalse⟩ := List.mem_map.mp hmem
  cases hfalse

end Build

/-- A cancellation changes what a schedule is owed, never what it is for, and only once. -/
theorem cancelSchedule_eq_ok {now : Timestamp} {schedule cancelled : BillingSchedule}
    (h : cancelSchedule now schedule = .ok cancelled) :
    schedule.status ≠ .cancelled ∧ cancelled.status = .cancelled ∧ cancelled.id = schedule.id ∧
      cancelled.quoteLineId = schedule.quoteLineId := by
  unfold cancelSchedule at h
  split at h
  · cases h
  · rename_i hopen
    dsimp only at h
    split at h
    · obtain rfl := Except.ok.inj h
      exact ⟨hopen, rfl, rfl, rfl⟩
    · obtain rfl := Except.ok.inj h
      exact ⟨hopen, rfl, rfl, rfl⟩

end Billing

/-! ## What each edit makes of the schedules -/

/-- The schedules with the one cancelled that has the id. -/
def cancelIn (schedules : List BillingSchedule) (scheduleId : Id) (cancelled : BillingSchedule) :
    List BillingSchedule :=
  schedules.map fun item => if item.id = scheduleId then cancelled else item

/-- What an edit of the loaded quote `a` makes of its schedules. -/
inductive Reschedules (env : Env) (w : World) (a : QuoteAggregate) :
    QuoteEdit → List BillingSchedule → Prop
  | kept {op} : Reschedules env w a op a.schedules
  | billed {quoteId version uuid schedules} (hversion : a.quote.version = version)
      (hopen : isOpenForBilling a.quote.status = true) (huuid : Function.Injective uuid)
      (hbuilt : Billing.buildBillingSchedules id uuid quoteId env.now a.lines a.products = .ok schedules) :
      Reschedules env w a (.generateBilling quoteId version) schedules
  | cancelled {quoteId scheduleId version schedule cancelled}
      (hfound : a.schedules.find? (fun item => item.id = scheduleId) = some schedule)
      (hcancelled : Billing.cancelSchedule env.now schedule = .ok cancelled) :
      Reschedules env w a (.cancelBilling quoteId scheduleId version)
        (cancelIn a.schedules scheduleId cancelled)

section Edits

variable {env : Env} {w w' : World} {a b : QuoteAggregate} {op : QuoteEdit}

theorem generateBilling_built {quoteId : Id} {version : ℕ}
    (h : (generateBilling env quoteId version).edit a w = .ok (some b) w') :
    ∃ uuid, Function.Injective uuid ∧ a.quote.version = version ∧
      isOpenForBilling a.quote.status = true ∧
      Billing.buildBillingSchedules id uuid quoteId env.now a.lines a.products = .ok b.schedules := by
  simp only [generateBilling, Mutation.saving, map_eq_ok, bind_eq_ok, throwIf_eq_ok,
    assertExpectedVersion_eq_ok, randomUUIDs_eq_ok, lift_eq_ok, moveTo_eq_ok, pure_eq_ok,
    Option.some.injEq] at h
  obtain ⟨_, ⟨_, _, ⟨hversion, rfl⟩, _, _, ⟨hopen, rfl⟩, uuid, _, ⟨rfl, rfl⟩, schedules, _,
    ⟨hbuilt, rfl⟩, _, _, ⟨-, rfl, rfl⟩, rfl, rfl⟩, rfl⟩ := h
  exact ⟨_, fun i j hij => Nat.add_left_cancel hij, hversion, not_not.mp hopen, hbuilt⟩

theorem cancelBilling_schedules {quoteId scheduleId : Id} {version : ℕ}
    (h : (cancelBilling env quoteId scheduleId version).edit a w = .ok (some b) w') :
    ∃ schedule cancelled, a.schedules.find? (fun item => item.id = scheduleId) = some schedule ∧
      Billing.cancelSchedule env.now schedule = .ok cancelled ∧
      b.schedules = cancelIn a.schedules scheduleId cancelled := by
  simp only [cancelBilling, Mutation.saving, map_eq_ok, bind_eq_ok, assertExpectedVersion_eq_ok,
    orThrow_eq_ok, lift_eq_ok, pure_eq_ok, Option.some.injEq] at h
  obtain ⟨_, ⟨_, _, ⟨-, rfl⟩, schedule, _, ⟨hfound, rfl⟩, cancelled, _, ⟨hcancelled, rfl⟩, rfl, rfl⟩,
    rfl⟩ := h
  exact ⟨schedule, cancelled, hfound, hcancelled, rfl⟩

theorem reschedules_of_edit (h : (op.mutation env).edit a w = .ok (some b) w') :
    Reschedules env w a op b.schedules := by
  have hkept (hsame : b.schedules = a.schedules) : Reschedules env w a op b.schedules := by
    rw [hsame]
    exact .kept
  cases change_of_edit op h with
  | billed =>
      obtain ⟨uuid, huuid, hversion, hopen, hbuilt⟩ := generateBilling_built h
      exact .billed hversion hopen huuid hbuilt
  | cancelled =>
      obtain ⟨schedule, cancelled, hfound, hcancelled, hschedules⟩ := cancelBilling_schedules h
      rw [hschedules]
      exact .cancelled hfound hcancelled
  | _ =>
      have hbody := ‹b.body = _›
      have hschedules := eq_of_body (fun c => c.schedules) hbody (fun _ => rfl)
      exact hkept hschedules

theorem Reschedules.apart {schedules : List BillingSchedule}
    (h : Reschedules env w a op schedules) (ha : SchedulesApart a)
    (hlines : (a.lines.map (·.id)).Nodup) :
    (schedules.map (·.id)).Nodup ∧ (schedules.map (·.quoteLineId)).Nodup := by
  cases h with
  | kept => exact ⟨ha.ids, ha.lines⟩
  | billed hversion hopen huuid hbuilt =>
      refine ⟨?_, ?_⟩
      · rw [Billing.buildBillingSchedules_ids hbuilt]
        exact List.Nodup.map huuid List.nodup_range'
      · rw [Billing.buildBillingSchedules_lines hbuilt]
        exact hlines
  | @cancelled quoteId scheduleId version schedule cancelled hfound hcancelled =>
      obtain ⟨-, -, hid, hline⟩ := Billing.cancelSchedule_eq_ok hcancelled
      have hscheduleId : schedule.id = scheduleId := by simpa using List.find?_some hfound
      have hmem := List.mem_of_find?_eq_some hfound
      have hview {β : Type} {g : BillingSchedule → β} (hg : g cancelled = g schedule) :
          (cancelIn a.schedules scheduleId cancelled).map g = a.schedules.map g := by
        unfold cancelIn
        rw [List.map_map]
        refine List.map_congr_left fun item hitem => ?_
        show g (if item.id = scheduleId then cancelled else item) = g item
        split
        · rename_i heq
          have hsame := List.inj_on_of_nodup_map ha.ids hitem hmem (heq.trans hscheduleId.symm)
          rw [hg, hsame]
        · rfl
      rw [hview hid, hview hline]
      exact ⟨ha.ids, ha.lines⟩

/-- Only billing the quote anew takes a cancelled schedule away. -/
theorem Reschedules.mem_of_cancelled {schedules : List BillingSchedule}
    (h : Reschedules env w a op schedules) (ha : SchedulesApart a) {schedule : BillingSchedule}
    (hmem : schedule ∈ a.schedules) (hcancelled : schedule.status = .cancelled) :
    schedule ∈ schedules ∨
      ∃ quoteId, op = .generateBilling quoteId a.quote.version ∧
        isOpenForBilling a.quote.status = true := by
  cases h with
  | kept => exact .inl hmem
  | billed hversion hopen huuid hbuilt => exact .inr ⟨_, by rw [hversion], hopen⟩
  | @cancelled quoteId scheduleId version found cancelled hfound hnow =>
      obtain ⟨hopen, -, -, -⟩ := Billing.cancelSchedule_eq_ok hnow
      have hfoundId : found.id = scheduleId := by simpa using List.find?_some hfound
      have hne : schedule.id ≠ scheduleId := by
        intro heq
        have hsame := List.inj_on_of_nodup_map ha.ids hmem (List.mem_of_find?_eq_some hfound)
          (heq.trans hfoundId.symm)
        rw [hsame] at hcancelled
        exact hopen hcancelled
      refine .inl (List.mem_map.mpr ⟨schedule, hmem, ?_⟩)
      exact if_neg hne

end Edits

/-! ## Every run -/

/-- The request does not bill a quote again that has a cancelled schedule: it is no billing of a quote
that is open for it at that version, or every schedule of the quote still stands. -/
def BillsStanding (w : World) (request : Request) : Prop :=
  match request.operation with
  | .edit (.generateBilling quoteId version) => ∀ q ∈ w.store.quotes, q.id = quoteId →
      q.quote.version = version → isOpenForBilling q.quote.status = true →
        ∀ schedule ∈ q.schedules, schedule.status ≠ .cancelled
  | _ => True

instance (w : World) (request : Request) : Decidable (BillsStanding w request) := by
  unfold BillsStanding
  split <;> infer_instance

section Runs

variable {options : Options} {w : World} {request : Request} {q q' : QuoteAggregate}

theorem QuoteStep.apart (h : QuoteStep options w request q q') (hq : SchedulesApart q)
    (hlines : (q.lines.map (·.id)).Nodup) : SchedulesApart q' := by
  cases h with
  | untouched => exact hq
  | assessed hop hloaded hid hpairs =>
      have hids := hq.ids
      have hapart := hq.lines
      rw [← hloaded.schedules] at hids hapart
      exact ⟨hids, hapart⟩
  | @edited op a b w₁ pairs hop hload hloaded hedit hframe hchange hpairs hnext =>
      have ha : SchedulesApart a := by
        refine ⟨?_, ?_⟩
        · rw [hloaded.schedules]
          exact hq.ids
        · rw [hloaded.schedules]
          exact hq.lines
      rw [← hloaded.lines] at hlines
      obtain ⟨hids, hapart⟩ := (reschedules_of_edit hedit).apart ha hlines
      exact ⟨hids, hapart⟩

theorem QuoteStep.cancelled (h : QuoteStep options w request q q') (hmem : q ∈ w.store.quotes)
    (hq : SchedulesApart q) (hstanding : BillsStanding w request) {schedule : BillingSchedule}
    (hschedule : schedule ∈ q.schedules) (hcancelled : schedule.status = .cancelled) :
    schedule ∈ q'.schedules := by
  cases h with
  | untouched => exact hschedule
  | assessed hop hloaded hid hpairs =>
      rw [← hloaded.schedules] at hschedule
      exact hschedule
  | @edited op a b w₁ pairs hop hload hloaded hedit hframe hchange hpairs hnext =>
      have ha : SchedulesApart a := by
        refine ⟨?_, ?_⟩
        · rw [hloaded.schedules]
          exact hq.ids
        · rw [hloaded.schedules]
          exact hq.lines
      rw [← hloaded.schedules] at hschedule
      rcases (reschedules_of_edit hedit).mem_of_cancelled ha hschedule hcancelled with
        hkept | ⟨quoteId, rfl, hopen⟩
      · exact hkept
      · have hload : load quoteId w = .ok a w := hload
        obtain ⟨q₀, hq₀, hid⟩ := loaded_of_load hload
        have hsame : q.quote = q₀.quote := hloaded.quote.symm.trans hq₀.quote
        rw [hloaded.schedules] at hschedule
        rw [hloaded.quote] at hopen hop
        simp only [BillsStanding, hop] at hstanding
        refine absurd hcancelled (hstanding q hmem ?_ rfl hopen schedule hschedule)
        rw [QuoteAggregate.id, hsame]
        exact hid

/-- What every state of a run has: the schedules of every quote apart, and its lines identified. -/
structure BillingSound (w : World) : Prop where
  indexed : w.Indexed
  lines : ∀ q ∈ w.store.quotes, LinesIdentified w.nextUuid q
  apart : ∀ q ∈ w.store.quotes, SchedulesApart q

theorem draft_schedules {env : Env} {customerId : Id} {ownerId : Option String}
    {inputs : List LineInput} {actor : Actor} {w w' : World} {b : QuoteAggregate}
    (h : draftQuote env customerId ownerId inputs actor w = .ok b w') : b.schedules = [] := by
  simp only [draftQuote, bind_eq_ok, pure_eq_ok] at h
  obtain ⟨_, _, -, _, _, -, _, _, -, _, _, -, _, _, -, _, _, -, _, _, -, rfl, -⟩ := h
  rfl

theorem BillingSound.serve (h : BillingSound w) (options : Options) (request : Request) :
    BillingSound (serve options w request) := by
  refine ⟨h.indexed.serve options request, linesIdentified_invariant.serve h.lines, ?_⟩
  intro q' hq'
  rcases draft_of_serve hq' with
    ⟨q, hq, hstep⟩ | ⟨customerId, ownerId, inputs, actor, b, w₁, pairs, hop, hdraft, -, -, rfl⟩
  · exact hstep.apart (h.apart q hq) (h.lines q hq).distinct
  · have hnone : b.schedules = [] := draft_schedules hdraft
    refine ⟨?_, ?_⟩
    · show (b.schedules.map (·.id)).Nodup
      rw [hnone]
      exact List.nodup_nil
    · show (b.schedules.map (·.quoteLineId)).Nodup
      rw [hnone]
      exact List.nodup_nil

theorem World.Fresh.billingSound (h : w.Fresh) : BillingSound w := by
  have hnone (q : QuoteAggregate) (hq : q ∈ w.store.quotes) : False := by
    rw [h.quotes] at hq
    exact List.not_mem_nil hq
  exact ⟨h.indexed, fun q hq => (hnone q hq).elim, fun q hq => (hnone q hq).elim⟩

theorem BillingSound.serveAll (h : BillingSound w) (options : Options) (requests : List Request) :
    BillingSound (serveAll options w requests) :=
  Machine.invariant (fun _ request h => h.serve options request) h requests

/-- A schedule that every stored quote of an id has. -/
structure Has (quoteId : Id) (schedule : BillingSchedule) (w : World) : Prop where
  sound : BillingSound w
  used : quoteId < w.nextUuid
  has : ∀ q ∈ w.store.quotes, q.id = quoteId → schedule ∈ q.schedules

/-- While no quote with a cancelled schedule is billed again, a cancelled schedule stays. -/
theorem Has.serve {quoteId : Id} {schedule : BillingSchedule} (h : Has quoteId schedule w)
    (hcancelled : schedule.status = .cancelled) (hstanding : BillsStanding w request) :
    Has quoteId schedule (serve options w request) where
  sound := h.sound.serve options request
  used := h.used.trans_le (serve_nextUuid options w request)
  has := by
    intro q' hq' hid
    rcases quote_of_serve hq' with ⟨q, hq, hstep⟩ | hcreated
    · have hschedule := h.has q hq (hstep.id.symm.trans hid)
      exact hstep.cancelled hq (h.sound.apart q hq) hstanding hschedule hcancelled
    · exact absurd (hid.symm.trans hcreated.id) (Nat.ne_of_lt h.used)

/-- What a served cancellation leaves: the schedule, cancelled. -/
theorem cancelled_of_serve {quoteId scheduleId : Id} {version : ℕ}
    (hop : request.operation = .edit (.cancelBilling quoteId scheduleId version))
    (hok : succeeds options w request = true) :
    ∃ q ∈ (DealFlow360.serve options w request).store.quotes, q.id = quoteId ∧
      ∃ schedule ∈ q.schedules, schedule.id = scheduleId ∧ schedule.status = .cancelled := by
  obtain ⟨q, a, hload, hq, ⟨w₁, hidle⟩ | ⟨b, w₁, pairs, hedit, hpairs, htail⟩⟩ :=
    saved_of_succeeds hop hok
  · exact absurd hidle (by simp [QuoteEdit.mutation, cancelBilling, Mutation.saving])
  · have hquotes := quotes_of_saved ((keeps_edit _ _ a).of_ok hedit) htail
    obtain ⟨q₀, hq₀, hid⟩ := loaded_of_load (show load quoteId w = .ok a w from hload)
    refine ⟨_, by rw [hquotes]; exact Table.mem_upsert_self _ _, ?_, ?_⟩
    · show b.id = quoteId
      rw [(change_of_edit _ hedit).id, QuoteAggregate.id, hq₀.quote]
      exact hid
    · obtain ⟨schedule, cancelled, hfound, hcancelled, hschedules⟩ := cancelBilling_schedules hedit
      have hscheduleId : schedule.id = scheduleId := by simpa using List.find?_some hfound
      obtain ⟨-, hstatus, hsame, -⟩ := Billing.cancelSchedule_eq_ok hcancelled
      refine ⟨cancelled, ?_, hsame.trans hscheduleId, hstatus⟩
      show cancelled ∈ b.schedules
      rw [hschedules]
      exact List.mem_map.mpr ⟨schedule, List.mem_of_find?_eq_some hfound, if_pos hscheduleId⟩

/-- A served billing leaves no cancelled schedule: a run that bills a quote again after a cancellation
loses it at that step. -/
theorem standing_of_billing {quoteId : Id} {version : ℕ}
    (hop : request.operation = .edit (.generateBilling quoteId version))
    (hok : succeeds options w request = true) :
    ∃ q ∈ (DealFlow360.serve options w request).store.quotes, q.id = quoteId ∧
      ∀ schedule ∈ q.schedules, schedule.status ≠ .cancelled := by
  obtain ⟨q, a, hload, hq, ⟨w₁, hidle⟩ | ⟨b, w₁, pairs, hedit, hpairs, htail⟩⟩ :=
    saved_of_succeeds hop hok
  · exact absurd hidle (by simp [QuoteEdit.mutation, generateBilling, Mutation.saving])
  · have hquotes := quotes_of_saved ((keeps_edit _ _ a).of_ok hedit) htail
    obtain ⟨q₀, hq₀, hid⟩ := loaded_of_load (show load quoteId w = .ok a w from hload)
    refine ⟨_, by rw [hquotes]; exact Table.mem_upsert_self _ _, ?_, ?_⟩
    · show b.id = quoteId
      rw [(change_of_edit _ hedit).id, QuoteAggregate.id, hq₀.quote]
      exact hid
    · obtain ⟨uuid, -, -, -, hbuilt⟩ := generateBilling_built hedit
      exact Billing.buildBillingSchedules_standing hbuilt

end Runs

/-- The quote has the cancellation of a schedule on record, and bills its line no more. -/
structure StaysCancelled (schedule : BillingSchedule) (q : QuoteAggregate) : Prop where
  recorded : ∃ later ∈ q.schedules, later.quoteLineId = schedule.quoteLineId ∧
    later.status = .cancelled ∧ later.refundAmount = schedule.refundAmount ∧
    later.prorationAmount = schedule.prorationAmount
  alone : ∀ later ∈ q.schedules, later.quoteLineId = schedule.quoteLineId →
    later.status = .cancelled

/-- Once `cancelBilling` has cancelled a schedule, every later state of the quote keeps the cancelled
schedule with its refund and proration, and no other schedule for its line, in every run that bills no
quote again while it has a cancelled schedule. -/
theorem cancelled_billing_stays (options : Options) (w₀ : World) (hfresh : w₀.Fresh)
    (first rest : List Request) (request : Request) (quoteId scheduleId : Id) (version : ℕ)
    (hop : request.operation = .edit (.cancelBilling quoteId scheduleId version))
    (hok : succeeds options (serveAll options w₀ first) request = true)
    (hmeets : Machine.Meets (serve options) BillsStanding
      (serveAll options w₀ (first ++ [request])) rest) :
    ∃ q ∈ (serveAll options w₀ (first ++ [request])).store.quotes, q.id = quoteId ∧
      ∃ schedule ∈ q.schedules, schedule.id = scheduleId ∧ schedule.status = .cancelled ∧
        ∀ later ∈ (serveAll options w₀ (first ++ request :: rest)).store.quotes,
          later.id = quoteId → StaysCancelled schedule later := by
  have hsound : BillingSound (serveAll options w₀ first) := hfresh.billingSound.serveAll options first
  have hserved : BillingSound (serve options (serveAll options w₀ first) request) :=
    hsound.serve options request
  have hfirst : serveAll options w₀ (first ++ [request])
      = serve options (serveAll options w₀ first) request := Machine.run_concat w₀ first request
  have hlast : serveAll options w₀ (first ++ request :: rest)
      = serveAll options (serve options (serveAll options w₀ first) request) rest :=
    Machine.run_append w₀ first (request :: rest)
  rw [hfirst] at hmeets ⊢
  rw [hlast]
  obtain ⟨q, hq, hid, schedule, hschedule, hscheduleId, hcancelled⟩ := cancelled_of_serve hop hok
  refine ⟨q, hq, hid, schedule, hschedule, hscheduleId, hcancelled, fun later hlater hlaterId => ?_⟩
  have hstart : Has quoteId schedule (serve options (serveAll options w₀ first) request) := by
    refine ⟨hserved, ?_, fun other hother hotherId => ?_⟩
    · rw [← hid]
      exact hserved.indexed.fresh q hq
    · obtain rfl := hserved.indexed.eq_of_id hother hq (hotherId.trans hid.symm)
      exact hschedule
  have hend : Has quoteId schedule
      (serveAll options (serve options (serveAll options w₀ first) request) rest) :=
    Machine.invariant_of_meets (fun _ _ h hstanding => h.serve hcancelled hstanding) hstart hmeets
  have hmem := hend.has later hlater hlaterId
  refine ⟨⟨schedule, hmem, rfl, hcancelled, rfl, rfl⟩, fun other hother hline => ?_⟩
  rw [List.inj_on_of_nodup_map (hend.sound.apart later hlater).lines hother hmem hline]
  exact hcancelled

/-- The requests that take a new subscription to billing. -/
def billedDeal : List Request :=
  lockedDeal [{ productId := 13, quantity := 1, discountPercent := 0 }]
    ++ [{ operation := .edit (.generateBilling 100 5) }]

def cancellation : Request where
  operation := .edit (.cancelBilling 100 106 6)

/-- A subscription cancelled before its first period is refunded whole, also once the quote is
completed. -/
theorem cancelled_billing_stays_completed :
    let w := serveAll plainOptions startWorld
      (billedDeal ++ [cancellation, { operation := .edit (.complete 100 7) }])
    (∃ q ∈ w.store.quotes, q.id = 100 ∧ q.quote.status = .completed ∧
      q.schedules.map (fun schedule => (schedule.status, schedule.refundAmount))
        = [(.cancelled, 2400)]) ∧
      ∃ schedule : BillingSchedule, schedule.status = .cancelled ∧
        ∀ q ∈ w.store.quotes, q.id = 100 → StaysCancelled schedule q := by
  intro w
  refine ⟨by decide +kernel, ?_⟩
  obtain ⟨q, -, -, schedule, -, -, hcancelled, hstays⟩ :=
    cancelled_billing_stays plainOptions startWorld startWorld_fresh billedDeal
      [{ operation := .edit (.complete 100 7) }] cancellation 100 106 6 rfl (by decide +kernel)
      ⟨trivial, trivial⟩
  exact ⟨schedule, hcancelled, hstays⟩

/-- Billing the quote again bills the cancelled subscription again, and forgets its refund. -/
theorem cancelled_billing_lost :
    let billed := serveAll plainOptions startWorld billedDeal
    let cancelled := serve plainOptions billed cancellation
    let again : Request := { operation := .edit (.generateBilling 100 7) }
    succeeds plainOptions billed cancellation = true ∧
      succeeds plainOptions cancelled again = true ∧
      (∃ q ∈ cancelled.store.quotes, q.schedules.map (fun schedule =>
        (schedule.quoteLineId, schedule.status, schedule.refundAmount))
          = [(102, .cancelled, 2400)]) ∧
      ∃ q ∈ (serve plainOptions cancelled again).store.quotes, q.id = 100 ∧
        q.schedules.map (fun schedule =>
          (schedule.quoteLineId, schedule.status, schedule.refundAmount)) = [(102, .scheduled, 0)] := by
  decide +kernel

end DealFlow360
