import DealFlow360.Automation.Engine
import DealFlow360.Lib.Machine
import Mathlib.Data.List.Find

/-!
# Delivery of an event

An event is delivered again and again until a delivery returns. A rule that was
given its execution is a duplicate from then on, so the job of an execution is
enqueued by the delivery that creates it or never.

The loop over the rules is handled with `Lib.Loops`: an invariant for a round,
and what a round that stops leaves. From there

- `executionFor_of_returned`: a loop that comes to its end has given every
  matching rule its execution;
- `allQueued_handleRules_iff` and `allQueued_deliveries_iff`: all executions
  have their job if and only if no call of `enqueue` has failed;
- `event_delivered_iff`: the same from every reachable state, for every
  sequence of deliveries the last of which returns.

The failing run is the one the source's own comment on duplicates leads to: the
execution is there, its job never was enqueued, and the next delivery skips the
rule.
-/

namespace DealFlow360.Automation

/-- The numbers of rules and executions are used once. -/
structure AutomationState.Indexed (s : AutomationState) : Prop where
  rules : (s.store.rules.map AutomationRuleRecord.id).Nodup
  rule_lt : ∀ rule ∈ s.store.rules, rule.id < s.store.nextRule
  executions : (s.store.executions.map AutomationExecutionRecord.id).Nodup
  execution_lt : ∀ execution ∈ s.store.executions, execution.id < s.store.nextExecution
  job_lt : ∀ job ∈ s.jobs, job.executionId < s.store.nextExecution

namespace AutomationEngine

variable (engine : AutomationEngine) (event : DomainEvent)

/-- One delivery of the event. -/
abbrev deliver (s : AutomationState) (faults : Id → RuleFaults) : AutomationState :=
  (engine.handleEvent event faults s).2

/-- The enabled rules whose conditions the event meets. -/
def matching (s : AutomationState) : List AutomationRuleRecord :=
  (s.store.listEnabledRulesByTrigger event.type).filter (engine.matchesEvent event)

/-- Every matching rule has one execution for the event, whose job has been enqueued. -/
def Delivered (s : AutomationState) : Prop :=
  ∀ rule ∈ engine.matching event s, ∃ execution,
    (s.store.executions.filter fun execution =>
      execution.ruleId = rule.id ∧ execution.eventId = event.id) = [execution] ∧
    ∃ job ∈ s.jobs, job.executionId = execution.id ∧ job.jobId = executeJobId execution.id

/-- A call fails while the rule is handled: `createExecution`, or `enqueue` if the rule has no execution for
the event yet. -/
def stops (faults : Id → RuleFaults) (s : AutomationState) (rule : AutomationRuleRecord) : Bool :=
  (faults rule.id).createExecution ||
    (s.store.executionFor rule.id event.id).isNone && (faults rule.id).enqueue

/-- The call at which the delivery stops, if it does, is none of `enqueue`. -/
def EnqueuesAll (rules : List AutomationRuleRecord) (faults : Id → RuleFaults) (s : AutomationState) : Prop :=
  ∀ rule, (rules.filter (engine.matchesEvent event)).find? (stops event faults s) = some rule →
    (faults rule.id).createExecution = true

instance (rules : List AutomationRuleRecord) (faults : Id → RuleFaults) (s : AutomationState) :
    Decidable (engine.EnqueuesAll event rules faults s) :=
  inferInstanceAs (Decidable (∀ rule ∈ (rules.filter (engine.matchesEvent event)).find? (stops event faults s),
    (faults rule.id).createExecution = true))

end AutomationEngine

/-- Every execution for the event has had its job enqueued. -/
def AutomationState.AllQueued (s : AutomationState) (eventId : String) : Prop :=
  ∀ execution ∈ s.store.executions, execution.eventId = eventId →
    ∃ job ∈ s.jobs, job.executionId = execution.id ∧ job.jobId = AutomationEngine.executeJobId execution.id

/-! ## One rule -/

/-- The execution that the rule is given. -/
def newExecution (s : AutomationState) (event : DomainEvent) (ruleId : Id) : AutomationExecutionRecord :=
  { id := s.store.nextExecution
    ruleId
    eventId := event.id
    trigger := event.type
    status := .queued
    attempt := 0
    maxAttempts := jobAttempts
    payload := event.payload
    errorMessage := none
    startedAt := none
    finishedAt := none
    createdAt := s.now
    actionRuns := [] }

namespace AutomationState

/-- The rule has been given an execution. -/
def withExecution (s : AutomationState) (event : DomainEvent) (rule : AutomationRuleRecord) : AutomationState :=
  { s with
    store := { s.store with
      executions := s.store.executions ++ [newExecution s event rule.id]
      nextExecution := s.store.nextExecution + 1 }
    matched := s.matched ++ [{ executionId := s.store.nextExecution, rule }] }

/-- The job of the newest execution has been enqueued. -/
def withJob (s : AutomationState) (event : DomainEvent) (executionId : Id) : AutomationState :=
  { s with
    jobs := s.jobs ++
      [{ jobId := AutomationEngine.executeJobId executionId
         executionId
         actor := event.actor
         attempts := jobAttempts
         backoffMs := jobBackoffMs }] }

end AutomationState

section Rule

variable {engine : AutomationEngine} {event : DomainEvent} {s : AutomationState}
  {rule : AutomationRuleRecord} {faults : RuleFaults}

/-- What the loop can do with a rule. -/
inductive HandledRule (engine : AutomationEngine) (event : DomainEvent) (faults : RuleFaults)
    (rule : AutomationRuleRecord) (s : AutomationState) : RuleOutcome × AutomationState → Prop
  | unmatched (hmatch : engine.matchesEvent event rule = false) :
      HandledRule engine event faults rule s (.skipped, s)
  | failed (hmatch : engine.matchesEvent event rule = true) (hfault : faults.createExecution = true) :
      HandledRule engine event faults rule s (.threw (.thrown "createExecution failed"), s)
  | duplicate (hmatch : engine.matchesEvent event rule = true) (hfault : faults.createExecution = false)
      (hfound : (s.store.executionFor rule.id event.id).isSome) :
      HandledRule engine event faults rule s (.skipped, s)
  | lost (hmatch : engine.matchesEvent event rule = true) (hcreate : faults.createExecution = false)
      (hfound : s.store.executionFor rule.id event.id = none) (hfault : faults.enqueue = true) :
      HandledRule engine event faults rule s (.threw (.thrown "enqueue failed"), s.withExecution event rule)
  | queued (hmatch : engine.matchesEvent event rule = true) (hcreate : faults.createExecution = false)
      (hfound : s.store.executionFor rule.id event.id = none) (hfault : faults.enqueue = false) :
      HandledRule engine event faults rule s
        (.queued, (s.withExecution event rule).withJob event s.store.nextExecution)

theorem createExecution_of_none (hfound : s.store.executionFor rule.id event.id = none) :
    s.store.createExecution rule.id event jobAttempts s.now =
      ((s.withExecution event rule).store, some (newExecution s event rule.id)) := by
  unfold AutomationStore.createExecution
  rw [hfound]
  rfl

theorem handledRule (engine : AutomationEngine) (event : DomainEvent) (faults : RuleFaults)
    (rule : AutomationRuleRecord) (s : AutomationState) :
    HandledRule engine event faults rule s (engine.handleRule event faults rule s) := by
  unfold AutomationEngine.handleRule
  cases hmatch : engine.matchesEvent event rule with
  | false => exact .unmatched hmatch
  | true =>
      rw [if_neg (by simp)]
      cases hcreate : faults.createExecution with
      | true =>
          rw [if_pos rfl]
          exact .failed hmatch hcreate
      | false =>
          rw [if_neg Bool.false_ne_true]
          cases hfound : s.store.executionFor rule.id event.id with
          | some execution =>
              have hduplicate : s.store.createExecution rule.id event jobAttempts s.now = (s.store, none) := by
                unfold AutomationStore.createExecution
                rw [hfound]
              rw [hduplicate]
              exact .duplicate hmatch hcreate (by rw [hfound]; rfl)
          | none =>
              rw [createExecution_of_none hfound]
              dsimp only
              cases hfault : faults.enqueue with
              | true =>
                  rw [if_pos rfl]
                  exact .lost hmatch hcreate hfound hfault
              | false =>
                  rw [if_neg Bool.false_ne_true]
                  exact .queued hmatch hcreate hfound hfault

theorem executionFor_withExecution (s : AutomationState) (event : DomainEvent) (rule : AutomationRuleRecord)
    (ruleId : Id) (eventId : String) :
    (s.withExecution event rule).store.executionFor ruleId eventId =
      (s.store.executionFor ruleId eventId).or
        (if rule.id = ruleId ∧ event.id = eventId then some (newExecution s event rule.id) else none) := by
  unfold AutomationStore.executionFor AutomationState.withExecution
  rw [List.find?_append]
  congr 1
  rw [List.find?_singleton]
  by_cases h : rule.id = ruleId ∧ event.id = eventId
  · rw [if_pos h]
    exact if_pos (decide_eq_true h)
  · rw [if_neg h]
    exact if_neg fun hdecide => h (of_decide_eq_true hdecide)

theorem indexed_withExecution (hs : s.Indexed) : (s.withExecution event rule).Indexed where
  rules := hs.rules
  rule_lt := hs.rule_lt
  executions := by
    show ((s.store.executions ++ [newExecution s event rule.id]).map AutomationExecutionRecord.id).Nodup
    rw [List.map_append, List.nodup_append]
    refine ⟨hs.executions, List.nodup_singleton _, ?_⟩
    intro a ha b hb
    obtain ⟨execution, hexecution, rfl⟩ := List.mem_map.mp ha
    cases List.mem_singleton.mp hb
    exact (hs.execution_lt execution hexecution).ne
  execution_lt := by
    intro execution hexecution
    rcases List.mem_append.mp hexecution with hexecution | hexecution
    · exact (hs.execution_lt execution hexecution).trans (Nat.lt_succ_self _)
    · cases List.mem_singleton.mp hexecution
      exact Nat.lt_succ_self _
  job_lt := by
    intro job hjob
    exact (hs.job_lt job hjob).trans (Nat.lt_succ_self _)

theorem indexed_withJob (hs : s.Indexed) {executionId : Id} (hid : executionId < s.store.nextExecution) :
    (s.withJob event executionId).Indexed where
  rules := hs.rules
  rule_lt := hs.rule_lt
  executions := hs.executions
  execution_lt := hs.execution_lt
  job_lt := by
    intro job hjob
    rcases List.mem_append.mp hjob with hjob | hjob
    · exact hs.job_lt job hjob
    · cases List.mem_singleton.mp hjob
      exact hid

theorem indexed_handleRule (hs : s.Indexed) : (engine.handleRule event faults rule s).2.Indexed := by
  have h := handledRule engine event faults rule s
  generalize engine.handleRule event faults rule s = answer at h
  cases h with
  | unmatched | failed | duplicate => exact hs
  | lost => exact indexed_withExecution hs
  | queued => exact indexed_withJob (indexed_withExecution hs) (Nat.lt_succ_self _)

theorem rules_handleRule : (engine.handleRule event faults rule s).2.store.rules = s.store.rules := by
  have h := handledRule engine event faults rule s
  generalize engine.handleRule event faults rule s = answer at h
  cases h <;> rfl

/-- An execution that is there stays. -/
theorem mem_executions_handleRule {execution : AutomationExecutionRecord}
    (hmem : execution ∈ s.store.executions) :
    execution ∈ (engine.handleRule event faults rule s).2.store.executions := by
  have h := handledRule engine event faults rule s
  generalize engine.handleRule event faults rule s = answer at h
  cases h with
  | unmatched | failed | duplicate => exact hmem
  | lost | queued => exact List.mem_append_left _ hmem

/-- An execution whose job has not been enqueued when it was created stays without one. -/
theorem allQueued_of_handleRule (hs : s.Indexed)
    (h' : (engine.handleRule event faults rule s).2.AllQueued event.id) : s.AllQueued event.id := by
  have h := handledRule engine event faults rule s
  generalize engine.handleRule event faults rule s = answer at h h'
  intro execution hexecution hevent
  cases h with
  | unmatched | failed | duplicate => exact h' execution hexecution hevent
  | lost => exact h' execution (List.mem_append_left _ hexecution) hevent
  | queued =>
      obtain ⟨job, hjob, hid, hname⟩ := h' execution (List.mem_append_left _ hexecution) hevent
      rcases List.mem_append.mp hjob with hjob | hjob
      · exact ⟨job, hjob, hid, hname⟩
      · cases List.mem_singleton.mp hjob
        exact absurd hid (hs.execution_lt execution hexecution).ne'

theorem allQueued_queued (h : s.AllQueued event.id) :
    ((s.withExecution event rule).withJob event s.store.nextExecution).AllQueued event.id := by
  intro execution hexecution hevent
  rcases List.mem_append.mp hexecution with hexecution | hexecution
  · obtain ⟨job, hjob, hid⟩ := h execution hexecution hevent
    exact ⟨job, List.mem_append_left _ hjob, hid⟩
  · cases List.mem_singleton.mp hexecution
    exact ⟨_, List.mem_append_right _ (List.mem_singleton_self _), rfl, rfl⟩

theorem not_allQueued_lost (hs : s.Indexed) : ¬ (s.withExecution event rule).AllQueued event.id := by
  intro h
  obtain ⟨job, hjob, hid, -⟩ := h (newExecution s event rule.id)
    (List.mem_append_right _ (List.mem_singleton_self _)) rfl
  exact absurd hid (hs.job_lt job hjob).ne

end Rule

/-! ## All rules -/

section Rules

variable {engine : AutomationEngine} {event : DomainEvent} {faults : Id → RuleFaults} {s : AutomationState}
  {rules : List AutomationRuleRecord} {counts : HandledEvent}

/-- What every round keeps, the loop keeps, where it stops too. -/
theorem handleRules_keeps {I : AutomationState → Prop}
    (hkeeps : ∀ rule ∈ rules, ∀ s, I s → I (engine.handleRule event (faults rule.id) rule s).2) (hs : I s) :
    I (engine.handleRules event faults rules counts s).2 := by
  induction rules generalizing s counts with
  | nil => exact hs
  | cons rule rules ih =>
      have hfirst := hkeeps rule List.mem_cons_self s hs
      have hothers : ∀ other ∈ rules, ∀ s, I s → I (engine.handleRule event (faults other.id) other s).2 :=
        fun other hother => hkeeps other (List.mem_cons_of_mem _ hother)
      unfold AutomationEngine.handleRules
      generalize engine.handleRule event (faults rule.id) rule s = answer at hfirst ⊢
      obtain ⟨outcome, s'⟩ := answer
      cases outcome with
      | threw error => exact hfirst
      | queued => exact ih hothers hfirst
      | skipped => exact ih hothers hfirst

/-- A loop that comes to its end has given every matching rule its execution. -/
theorem executionFor_of_returned {answer : HandledEvent}
    (hreturned : (engine.handleRules event faults rules counts s).1 = .ok answer) :
    ∀ rule ∈ rules, engine.matchesEvent event rule = true →
      ((engine.handleRules event faults rules counts s).2.store.executionFor rule.id event.id).isSome := by
  induction rules generalizing s counts with
  | nil => nofun
  | cons first rules ih =>
      have hkeeps (rule : AutomationRuleRecord) (s : AutomationState) (counts : HandledEvent)
          (h : (s.store.executionFor rule.id event.id).isSome) :
          ((engine.handleRules event faults rules counts s).2.store.executionFor rule.id event.id).isSome := by
        refine handleRules_keeps (I := fun s => (s.store.executionFor rule.id event.id).isSome) ?_ h
        intro other _ s h
        obtain ⟨execution, hmem, hfound⟩ := List.find?_isSome.mp h
        exact List.find?_isSome.mpr ⟨execution, mem_executions_handleRule hmem, hfound⟩
      have h := handledRule engine event (faults first.id) first s
      unfold AutomationEngine.handleRules at hreturned ⊢
      generalize engine.handleRule event (faults first.id) first s = handled at h hreturned ⊢
      intro rule hrule hmatches
      rcases List.mem_cons.mp hrule with rfl | hrule
      · cases h with
        | unmatched hmatch =>
            rw [hmatches] at hmatch
            cases hmatch
        | failed => cases hreturned
        | lost => cases hreturned
        | duplicate _ _ hfound => exact hkeeps rule s _ hfound
        | queued =>
            refine hkeeps rule _ _ (List.find?_isSome.mpr ⟨newExecution s event rule.id, ?_, ?_⟩)
            · exact List.mem_append_right _ (List.mem_singleton_self _)
            · exact decide_eq_true ⟨rfl, rfl⟩
      · cases h with
        | failed => cases hreturned
        | lost => cases hreturned
        | unmatched | duplicate | queued => exact ih hreturned rule hrule hmatches

/-- Giving a rule its execution changes nothing for the other rules. -/
theorem stops_withExecution {rule other : AutomationRuleRecord} (hother : other.id ≠ rule.id)
    (s : AutomationState) :
    AutomationEngine.stops event faults (s.withExecution event rule) other =
      AutomationEngine.stops event faults s other := by
  unfold AutomationEngine.stops
  rw [executionFor_withExecution, if_neg fun h => hother h.1.symm, Option.or_none]

theorem enqueuesAll_of_unmatched {rule : AutomationRuleRecord}
    (hmatch : engine.matchesEvent event rule = false) :
    engine.EnqueuesAll event (rule :: rules) faults s ↔ engine.EnqueuesAll event rules faults s := by
  unfold AutomationEngine.EnqueuesAll
  rw [List.filter_cons_of_neg (by rw [hmatch]; exact Bool.false_ne_true)]

theorem enqueuesAll_of_stops {rule : AutomationRuleRecord} (hmatch : engine.matchesEvent event rule = true)
    (hstops : AutomationEngine.stops event faults s rule = true) :
    engine.EnqueuesAll event (rule :: rules) faults s ↔ (faults rule.id).createExecution = true := by
  unfold AutomationEngine.EnqueuesAll
  rw [List.filter_cons_of_pos hmatch, List.find?_cons_of_pos hstops]
  exact ⟨fun h => h rule rfl, fun h other hother => Option.some.inj hother ▸ h⟩

theorem enqueuesAll_of_not_stops {rule : AutomationRuleRecord}
    (hmatch : engine.matchesEvent event rule = true)
    (hstops : AutomationEngine.stops event faults s rule = false) :
    engine.EnqueuesAll event (rule :: rules) faults s ↔ engine.EnqueuesAll event rules faults s := by
  unfold AutomationEngine.EnqueuesAll
  rw [List.filter_cons_of_pos hmatch, List.find?_cons_of_neg (by rw [hstops]; exact Bool.false_ne_true)]

/-- A delivery keeps all executions of the event with a job if and only if no call of `enqueue` fails. -/
theorem allQueued_handleRules_iff (hs : s.Indexed) (hrules : (rules.map AutomationRuleRecord.id).Nodup)
    (hqueued : s.AllQueued event.id) :
    (engine.handleRules event faults rules counts s).2.AllQueued event.id ↔
      engine.EnqueuesAll event rules faults s := by
  induction rules generalizing s counts with
  | nil => exact iff_of_true hqueued nofun
  | cons rule rules ih =>
      rw [List.map_cons, List.nodup_cons] at hrules
      have h := handledRule engine event (faults rule.id) rule s
      unfold AutomationEngine.handleRules
      generalize engine.handleRule event (faults rule.id) rule s = handled at h ⊢
      cases h with
      | unmatched hmatch =>
          rw [enqueuesAll_of_unmatched hmatch]
          exact ih hs hrules.2 hqueued
      | duplicate hmatch hcreate hfound =>
          have hstops : AutomationEngine.stops event faults s rule = false := by
            unfold AutomationEngine.stops
            rw [hcreate, Option.isNone_eq_false_iff.mpr hfound]
            rfl
          rw [enqueuesAll_of_not_stops hmatch hstops]
          exact ih hs hrules.2 hqueued
      | failed hmatch hfault =>
          have hstops : AutomationEngine.stops event faults s rule = true := by
            unfold AutomationEngine.stops
            rw [hfault, Bool.true_or]
          rw [enqueuesAll_of_stops hmatch hstops]
          exact iff_of_true hqueued hfault
      | lost hmatch hcreate hfound hfault =>
          have hstops : AutomationEngine.stops event faults s rule = true := by
            unfold AutomationEngine.stops
            rw [hfound, hfault]
            exact Bool.or_true _
          rw [enqueuesAll_of_stops hmatch hstops, hcreate]
          exact iff_of_false (not_allQueued_lost hs) Bool.false_ne_true
      | queued hmatch hcreate hfound hfault =>
          have hstops : AutomationEngine.stops event faults s rule = false := by
            unfold AutomationEngine.stops
            rw [hcreate, hfault, Bool.and_false]
            rfl
          have hothers : ∀ other ∈ rules, other.id ≠ rule.id := fun other hother hid =>
            hrules.1 (hid ▸ List.mem_map_of_mem hother)
          rw [enqueuesAll_of_not_stops hmatch hstops,
            ih (indexed_withJob (indexed_withExecution hs) (Nat.lt_succ_self _)) hrules.2
              (allQueued_queued hqueued)]
          have hsame : (rules.filter (engine.matchesEvent event)).find?
              (AutomationEngine.stops event faults
                ((s.withExecution event rule).withJob event s.store.nextExecution)) =
              (rules.filter (engine.matchesEvent event)).find? (AutomationEngine.stops event faults s) := by
            refine List.find?_congr fun other hother => ?_
            exact stops_withExecution (hothers other (List.mem_filter.mp hother).1) s
          unfold AutomationEngine.EnqueuesAll
          rw [hsame]

theorem allQueued_of_handleRules (hs : s.Indexed)
    (h : (engine.handleRules event faults rules counts s).2.AllQueued event.id) : s.AllQueued event.id := by
  by_contra hnot
  have hkeeps : (engine.handleRules event faults rules counts s).2.Indexed ∧
      ¬ (engine.handleRules event faults rules counts s).2.AllQueued event.id := by
    refine handleRules_keeps (I := fun s => s.Indexed ∧ ¬ s.AllQueued event.id) ?_ ⟨hs, hnot⟩
    intro rule _ s hs
    exact ⟨indexed_handleRule hs.1, fun h => hs.2 (allQueued_of_handleRule hs.1 h)⟩
  exact hkeeps.2 h

/-- The event's executions are of matching rules of the list, one for each at most. -/
structure Given (engine : AutomationEngine) (event : DomainEvent) (rules : List AutomationRuleRecord)
    (s : AutomationState) : Prop where
  single : ∀ ruleId, (s.store.executions.filter fun execution =>
    execution.ruleId = ruleId ∧ execution.eventId = event.id).length ≤ 1
  matched : ∀ execution ∈ s.store.executions, execution.eventId = event.id →
    ∃ rule ∈ rules, engine.matchesEvent event rule = true ∧ rule.id = execution.ruleId

theorem given_withExecution {rule : AutomationRuleRecord} (hrule : rule ∈ rules)
    (hmatch : engine.matchesEvent event rule = true)
    (hfound : s.store.executionFor rule.id event.id = none) (h : Given engine event rules s) :
    Given engine event rules (s.withExecution event rule) := by
  constructor
  · intro ruleId
    show ((s.store.executions ++ [newExecution s event rule.id]).filter _).length ≤ 1
    rw [List.filter_append, List.length_append]
    by_cases hid : rule.id = ruleId
    · have hnone : (s.store.executions.filter fun execution =>
          execution.ruleId = ruleId ∧ execution.eventId = event.id) = [] := by
        subst hid
        exact List.filter_eq_nil_iff.mpr (List.find?_eq_none.mp hfound)
      rw [hnone]
      exact (Nat.zero_add _).trans_le (List.length_filter_le _ _)
    · rw [List.filter_singleton, decide_eq_false fun hnew => hid hnew.1]
      exact h.single ruleId
  · intro execution hexecution hevent
    rcases List.mem_append.mp hexecution with hexecution | hexecution
    · exact h.matched execution hexecution hevent
    · cases List.mem_singleton.mp hexecution
      exact ⟨rule, hrule, hmatch, rfl⟩

theorem given_handleRule {faults : RuleFaults} {rule : AutomationRuleRecord} (hrule : rule ∈ rules)
    (h : Given engine event rules s) :
    Given engine event rules (engine.handleRule event faults rule s).2 := by
  have hhandled := handledRule engine event faults rule s
  generalize engine.handleRule event faults rule s = answer at hhandled
  cases hhandled with
  | unmatched | failed | duplicate => exact h
  | lost hmatch _ hfound | queued hmatch _ hfound =>
      have hgiven := given_withExecution hrule hmatch hfound h
      exact ⟨hgiven.single, hgiven.matched⟩

/-- Where every matching rule has an execution, the event is delivered if each of them has its job. -/
theorem delivered_iff_allQueued (hs : Given engine event (s.store.listEnabledRulesByTrigger event.type) s)
    (hfound : ∀ rule ∈ s.store.listEnabledRulesByTrigger event.type, engine.matchesEvent event rule = true →
      (s.store.executionFor rule.id event.id).isSome) :
    engine.Delivered event s ↔ s.AllQueued event.id := by
  constructor
  · intro h execution hexecution hevent
    obtain ⟨rule, hrule, hmatch, hid⟩ := hs.matched execution hexecution hevent
    obtain ⟨single, hsingle, hjob⟩ := h rule (List.mem_filter.mpr ⟨hrule, hmatch⟩)
    have hmem : execution ∈ [single] := by
      rw [← hsingle]
      exact List.mem_filter.mpr ⟨hexecution, decide_eq_true ⟨hid.symm, hevent⟩⟩
    cases List.mem_singleton.mp hmem
    exact hjob
  · intro h rule hrule
    obtain ⟨hrule, hmatch⟩ := List.mem_filter.mp hrule
    obtain ⟨execution, hexecution, hfor⟩ := List.find?_isSome.mp (hfound rule hrule hmatch)
    have hmem : execution ∈ s.store.executions.filter fun execution =>
        execution.ruleId = rule.id ∧ execution.eventId = event.id :=
      List.mem_filter.mpr ⟨hexecution, hfor⟩
    refine ⟨execution, ?_, h execution hexecution (of_decide_eq_true hfor).2⟩
    have hlength := hs.single rule.id
    revert hmem hlength
    generalize (s.store.executions.filter fun execution =>
      execution.ruleId = rule.id ∧ execution.eventId = event.id) = found
    intro hmem hlength
    match found with
    | [only] => rw [List.mem_singleton.mp hmem]
    | [] => cases hmem
    | _ :: _ :: _ => simp at hlength

end Rules

/-! ## Every run -/

section Runs

variable {engine : AutomationEngine} {event : DomainEvent} {s : AutomationState}

theorem rules_handleEvent (faults : Id → RuleFaults) :
    (engine.handleEvent event faults s).2.store.rules = s.store.rules := by
  refine handleRules_keeps (I := fun s' => s'.store.rules = s.store.rules) ?_ rfl
  intro rule _ s' h
  rw [rules_handleRule, h]

theorem indexed_handleEvent (hs : s.Indexed) (faults : Id → RuleFaults) :
    (engine.handleEvent event faults s).2.Indexed :=
  handleRules_keeps (fun _ _ _ hs => indexed_handleRule hs) hs

theorem listEnabled_congr {s' : AutomationState} (h : s'.store.rules = s.store.rules) (trigger : String) :
    s'.store.listEnabledRulesByTrigger trigger = s.store.listEnabledRulesByTrigger trigger := by
  unfold AutomationStore.listEnabledRulesByTrigger
  rw [h]

theorem nodup_listEnabled (hs : s.Indexed) (trigger : String) :
    ((s.store.listEnabledRulesByTrigger trigger).map AutomationRuleRecord.id).Nodup := by
  have hfilter := (List.filter_sublist (p := fun rule : AutomationRuleRecord =>
    rule.enabled && rule.trigger = trigger) (l := s.store.rules)).map AutomationRuleRecord.id
  exact ((sortBy_perm _ _).map _).nodup_iff.mpr (hs.rules.sublist hfilter)

/-- What a delivery leaves as it found it, and what it keeps. -/
structure Delivering (engine : AutomationEngine) (event : DomainEvent) (rules : List AutomationRuleRecord)
    (s : AutomationState) : Prop where
  indexed : s.Indexed
  listed : s.store.listEnabledRulesByTrigger event.type = rules
  given : Given engine event rules s

theorem delivering_handleEvent {rules : List AutomationRuleRecord} (hs : Delivering engine event rules s)
    (faults : Id → RuleFaults) : Delivering engine event rules (engine.handleEvent event faults s).2 where
  indexed := indexed_handleEvent hs.indexed faults
  listed := (listEnabled_congr (rules_handleEvent faults) event.type).trans hs.listed
  given := by
    unfold AutomationEngine.handleEvent
    rw [hs.listed]
    exact handleRules_keeps (fun _ hrule _ h => given_handleRule hrule h) hs.given

theorem executionFor_of_handled {faults : Id → RuleFaults} {answer : HandledEvent}
    (hreturned : (engine.handleEvent event faults s).1 = .ok answer) :
    ∀ rule ∈ s.store.listEnabledRulesByTrigger event.type, engine.matchesEvent event rule = true →
      ((engine.handleEvent event faults s).2.store.executionFor rule.id event.id).isSome :=
  executionFor_of_returned hreturned

theorem allQueued_handleEvent_iff {rules : List AutomationRuleRecord} (hs : Delivering engine event rules s)
    (hqueued : s.AllQueued event.id) (faults : Id → RuleFaults) :
    (engine.handleEvent event faults s).2.AllQueued event.id ↔ engine.EnqueuesAll event rules faults s := by
  have hnodup := nodup_listEnabled hs.indexed event.type
  unfold AutomationEngine.handleEvent
  rw [hs.listed] at hnodup ⊢
  exact allQueued_handleRules_iff hs.indexed hnodup hqueued

/-- After any number of deliveries, all executions of the event have their job if and only if no call of
`enqueue` has failed. -/
theorem allQueued_deliveries_iff {rules : List AutomationRuleRecord} (hs : Delivering engine event rules s)
    (hqueued : s.AllQueued event.id) (deliveries : List (Id → RuleFaults)) :
    (Machine.run (engine.deliver event) s deliveries).AllQueued event.id ↔
      Machine.Meets (engine.deliver event)
        (fun s faults => engine.EnqueuesAll event (s.store.listEnabledRulesByTrigger event.type) faults s)
        s deliveries := by
  induction deliveries generalizing s with
  | nil => exact iff_of_true hqueued trivial
  | cons faults deliveries ih =>
      have hnext := delivering_handleEvent hs faults
      rw [Machine.run_cons]
      unfold Machine.Meets
      rw [hs.listed, ← allQueued_handleEvent_iff hs hqueued faults]
      constructor
      · intro h
        have hfirst : (engine.handleEvent event faults s).2.AllQueued event.id := by
          by_contra hnot
          have hstep (s : AutomationState) (faults : Id → RuleFaults)
              (hs : s.Indexed ∧ ¬ s.AllQueued event.id) :
              (engine.deliver event s faults).Indexed ∧ ¬ (engine.deliver event s faults).AllQueued event.id :=
            ⟨indexed_handleEvent hs.1 faults, fun h => hs.2 (allQueued_of_handleRules hs.1 h)⟩
          exact (Machine.invariant hstep ⟨hnext.indexed, hnot⟩ deliveries).2 h
        exact ⟨hfirst, (ih hnext hfirst).mp h⟩
      · rintro ⟨hfirst, hrest⟩
        exact (ih hnext hfirst).mpr hrest

end Runs

/-! ## Reachable states -/

section Reachable

variable {engine : AutomationEngine} {s : AutomationState}

/-- The store was empty, and everything has gone through the engine and the store since. -/
def AutomationState.Reachable (engine : AutomationEngine) (s : AutomationState) : Prop :=
  ∃ inputs, s = Machine.run (AutomationState.step engine) {} inputs

theorem ids_modifyExecution {store : AutomationStore} {id : Id}
    {f : AutomationExecutionRecord → AutomationExecutionRecord}
    (hf : ∀ execution, execution.id = id → (f execution).id = id) :
    (store.modifyExecution id f).executions.map AutomationExecutionRecord.id =
      store.executions.map AutomationExecutionRecord.id := by
  unfold AutomationStore.modifyExecution
  rw [List.map_map]
  refine List.map_congr_left fun execution _ => ?_
  dsimp only [Function.comp]
  split
  · rename_i hid
    rw [hf execution hid, hid]
  · rfl

theorem ids_upsertActionRun (store : AutomationStore) (input : UpsertActionRunInput) :
    (store.upsertActionRun input).executions.map AutomationExecutionRecord.id =
      store.executions.map AutomationExecutionRecord.id :=
  ids_modifyExecution fun _ hid => hid

theorem ids_modifyRule {store : AutomationStore} {id : Id} {f : AutomationRuleRecord → AutomationRuleRecord}
    (hf : ∀ rule, (f rule).id = rule.id) :
    (store.modifyRule id f).rules.map AutomationRuleRecord.id = store.rules.map AutomationRuleRecord.id := by
  unfold AutomationStore.modifyRule
  rw [List.map_map]
  refine List.map_congr_left fun rule _ => ?_
  dsimp only [Function.comp]
  split
  · exact hf rule
  · rfl

/-- The ids, the counters and the jobs are the same. -/
structure SameIds (s s' : AutomationState) : Prop where
  rules : s'.store.rules.map AutomationRuleRecord.id = s.store.rules.map AutomationRuleRecord.id
  executions : s'.store.executions.map AutomationExecutionRecord.id =
    s.store.executions.map AutomationExecutionRecord.id
  nextRule : s'.store.nextRule = s.store.nextRule
  nextExecution : s'.store.nextExecution = s.store.nextExecution
  jobs : s'.jobs = s.jobs

theorem SameIds.trans {s s' s'' : AutomationState} (h : SameIds s s') (h' : SameIds s' s'') : SameIds s s'' where
  rules := h'.rules.trans h.rules
  executions := h'.executions.trans h.executions
  nextRule := h'.nextRule.trans h.nextRule
  nextExecution := h'.nextExecution.trans h.nextExecution
  jobs := h'.jobs.trans h.jobs

theorem indexed_of_sameIds {s' : AutomationState} (hs : s.Indexed) (h : SameIds s s') : s'.Indexed where
  rules := h.rules ▸ hs.rules
  rule_lt := by
    intro rule hrule
    have hid : rule.id ∈ s.store.rules.map AutomationRuleRecord.id := h.rules ▸ List.mem_map_of_mem hrule
    obtain ⟨before, hbefore, hsame⟩ := List.mem_map.mp hid
    rw [h.nextRule, ← hsame]
    exact hs.rule_lt before hbefore
  executions := h.executions ▸ hs.executions
  execution_lt := by
    intro execution hexecution
    have hid : execution.id ∈ s.store.executions.map AutomationExecutionRecord.id :=
      h.executions ▸ List.mem_map_of_mem hexecution
    obtain ⟨before, hbefore, hsame⟩ := List.mem_map.mp hid
    rw [h.nextExecution, ← hsame]
    exact hs.execution_lt before hbefore
  job_lt := by
    intro job hjob
    rw [h.nextExecution]
    exact hs.job_lt job (h.jobs ▸ hjob)

theorem sameIds_runAction (engine : AutomationEngine) (rule : AutomationRuleRecord)
    (execution : AutomationExecutionRecord)
    (actor : Option AutomationActor) (action : AutomationAction) (index : ℕ) (outcome : ActionOutcome)
    (s : AutomationState) : SameIds s (engine.runAction rule execution actor action index outcome s).2 := by
  unfold AutomationEngine.runAction
  cases engine.checkAction rule actor action index with
  | error error => exact ⟨rfl, rfl, rfl, rfl, rfl⟩
  | ok _ =>
      cases outcome with
      | succeeded | failed =>
          exact ⟨rfl, (ids_upsertActionRun _ _).trans (ids_upsertActionRun _ _), rfl, rfl, rfl⟩

theorem sameIds_runActions (engine : AutomationEngine) (rule : AutomationRuleRecord)
    (execution : AutomationExecutionRecord)
    (actor : Option AutomationActor) (outcomes : ℕ → ActionOutcome) (actions : List AutomationAction) (index : ℕ)
    (s : AutomationState) : SameIds s (engine.runActions rule execution actor outcomes actions index s).2 := by
  induction actions generalizing index s with
  | nil => exact ⟨rfl, rfl, rfl, rfl, rfl⟩
  | cons action actions ih =>
      unfold AutomationEngine.runActions
      split
      · exact ih _ s
      · have hfirst := sameIds_runAction engine rule execution actor action index (outcomes index) s
        generalize engine.runAction rule execution actor action index (outcomes index) s = answer at hfirst ⊢
        obtain ⟨error, s'⟩ := answer
        cases error with
        | some error => exact hfirst
        | none => exact hfirst.trans (ih _ s')

theorem sameIds_runExecution (executionId : Id) (actor : Option AutomationActor)
    (outcomes : ℕ → ActionOutcome) (s : AutomationState) :
    SameIds s (engine.runExecution executionId actor outcomes s).2 := by
  unfold AutomationEngine.runExecution
  cases hfound : s.store.getExecution executionId with
  | none => exact ⟨rfl, rfl, rfl, rfl, rfl⟩
  | some execution =>
      have hid : execution.id = executionId := Table.key_of_lookup hfound
      dsimp only
      split
      · exact ⟨rfl, rfl, rfl, rfl, rfl⟩
      · split
        · exact ⟨rfl, rfl, rfl, rfl, rfl⟩
        · rename_i rule _
          have hstarted : SameIds s (s.modifyExecution executionId fun _ => execution.started s.now) :=
            ⟨rfl, ids_modifyExecution fun _ _ => hid, rfl, rfl, rfl⟩
          have hactions := hstarted.trans
            (sameIds_runActions engine rule (execution.started s.now) actor outcomes rule.actions 0 _)
          generalize engine.runActions rule (execution.started s.now) actor outcomes rule.actions 0
            (s.modifyExecution executionId fun _ => execution.started s.now) = answer at hactions ⊢
          obtain ⟨error, s'⟩ := answer
          cases error with
          | none | some => exact hactions.trans ⟨rfl, ids_modifyExecution fun _ hid => hid, rfl, rfl, rfl⟩

theorem indexed_step (hs : s.Indexed) (input : AutomationInput) : (s.step engine input).Indexed := by
  cases input with
  | createRule input =>
      constructor
      · show ((s.store.rules ++ [(s.store.createRule input s.now).2]).map AutomationRuleRecord.id).Nodup
        rw [List.map_append, List.nodup_append]
        refine ⟨hs.rules, List.nodup_singleton _, ?_⟩
        intro a ha b hb
        obtain ⟨rule, hrule, rfl⟩ := List.mem_map.mp ha
        cases List.mem_singleton.mp hb
        exact (hs.rule_lt rule hrule).ne
      · intro rule hrule
        rcases List.mem_append.mp hrule with hrule | hrule
        · exact (hs.rule_lt rule hrule).trans (Nat.lt_succ_self _)
        · cases List.mem_singleton.mp hrule
          exact Nat.lt_succ_self _
      · exact hs.executions
      · exact hs.execution_lt
      · exact hs.job_lt
  | updateRule id patch => exact indexed_of_sameIds hs ⟨ids_modifyRule fun _ => rfl, rfl, rfl, rfl, rfl⟩
  | setRuleEnabled id enabled validatedAt =>
      exact indexed_of_sameIds hs ⟨ids_modifyRule fun _ => rfl, rfl, rfl, rfl, rfl⟩
  | handleEvent event faults => exact indexed_handleEvent hs faults
  | runExecution executionId actor outcomes =>
      exact indexed_of_sameIds hs (sameIds_runExecution executionId actor outcomes s)
  | wait milliseconds => exact ⟨hs.rules, hs.rule_lt, hs.executions, hs.execution_lt, hs.job_lt⟩

theorem indexed_of_reachable (hs : s.Reachable engine) : s.Indexed := by
  obtain ⟨inputs, rfl⟩ := hs
  refine Machine.invariant (I := AutomationState.Indexed) (fun _ input hs => indexed_step hs input) ?_ inputs
  exact ⟨List.nodup_nil, nofun, List.nodup_nil, nofun, nofun⟩

end Reachable

/-- From every reachable state without an execution for the event, for every sequence of deliveries the last of
which returns, whatever calls fail in them: every enabled rule whose conditions match has one execution for the
event, with its job enqueued, if and only if no delivery is stopped by a failure of `enqueue`. -/
theorem event_delivered_iff (engine : AutomationEngine) (event : DomainEvent) (s : AutomationState)
    (hs : s.Reachable engine) (hnew : ∀ execution ∈ s.store.executions, execution.eventId ≠ event.id)
    (deliveries : List (Id → RuleFaults)) (last : Id → RuleFaults)
    (hreturned : ∃ answer, (engine.handleEvent event last
      (Machine.run (engine.deliver event) s deliveries)).1 = .ok answer) :
    engine.Delivered event
        (Machine.run (engine.deliver event) s (deliveries ++ [last])) ↔
      Machine.Meets (engine.deliver event)
        (fun s faults => engine.EnqueuesAll event (s.store.listEnabledRulesByTrigger event.type) faults s)
        s (deliveries ++ [last]) := by
  have hstart : Delivering engine event (s.store.listEnabledRulesByTrigger event.type) s := by
    refine ⟨indexed_of_reachable hs, rfl, fun ruleId => ?_, fun execution hexecution hevent => ?_⟩
    · rw [List.filter_eq_nil_iff.mpr]
      · exact Nat.zero_le _
      · intro execution hexecution hfor
        exact hnew execution hexecution (of_decide_eq_true hfor).2
    · exact absurd hevent (hnew execution hexecution)
  have hrun (inputs : List (Id → RuleFaults)) : Delivering engine event
      (s.store.listEnabledRulesByTrigger event.type) (Machine.run (engine.deliver event) s inputs) :=
    Machine.invariant (I := Delivering engine event (s.store.listEnabledRulesByTrigger event.type))
      (fun _ faults hs => delivering_handleEvent hs faults) hstart inputs
  have hend := hrun (deliveries ++ [last])
  have hqueued : s.AllQueued event.id := fun execution hexecution hevent =>
    absurd hevent (hnew execution hexecution)
  rw [← allQueued_deliveries_iff hstart hqueued]
  refine delivered_iff_allQueued (hend.listed ▸ hend.given) fun rule hrule hmatch => ?_
  obtain ⟨answer, hreturned⟩ := hreturned
  have hbefore := hrun deliveries
  rw [hend.listed] at hrule
  rw [Machine.run_concat]
  exact executionFor_of_handled hreturned rule (hbefore.listed.symm ▸ hrule) hmatch

/-- Two rules that match every event of one type. -/
def twoRules (engine : AutomationEngine) : AutomationState :=
  Machine.run (AutomationState.step engine) {}
    [.createRule { enabled := true, trigger := "order.created", actions := [{ type := "createAuditLog" }] },
      .createRule { enabled := true, trigger := "order.created", actions := [{ type := "createAuditLog" }] }]

def orderCreated : DomainEvent := { id := "order-1", type := "order.created", payload := [] }

def plainEngine : AutomationEngine where
  registries := { triggers := [], operators := [], actions := [] }
  queuesAnalysis := true
  sanitizeErrorMessage := id

/-- The second rule's execution cannot be created at first; the next delivery creates it. -/
theorem event_delivered_again : plainEngine.Delivered orderCreated
    (Machine.run (plainEngine.deliver orderCreated) (twoRules plainEngine)
      ([fun id => { createExecution := id = 1 }] ++ [fun _ => { enqueue := false }])) := by
  refine (event_delivered_iff plainEngine orderCreated (twoRules plainEngine) ⟨_, rfl⟩ nofun _ _ ?_).mpr ?_
  · exact ⟨{ matched := 2, queued := 1, skipped := 1 }, by decide +kernel⟩
  · decide +kernel

/-- The job of the first rule's execution cannot be enqueued at first; the next delivery returns, and skips the
rule as a duplicate. -/
theorem execution_without_job :
    let s := Machine.run (plainEngine.deliver orderCreated) (twoRules plainEngine)
      [fun id => { enqueue := id = 0 }, fun _ => { enqueue := false }]
    (plainEngine.handleEvent orderCreated (fun _ => { enqueue := false })
        (plainEngine.deliver orderCreated (twoRules plainEngine) fun id => { enqueue := id = 0 })).1 =
      .ok { matched := 2, queued := 1, skipped := 1 } ∧
    ¬ plainEngine.Delivered orderCreated s := by
  refine ⟨by decide +kernel, fun h => ?_⟩
  have horphan : ∃ rule ∈ plainEngine.matching orderCreated (Machine.run (plainEngine.deliver orderCreated)
      (twoRules plainEngine) [fun id => { enqueue := id = 0 }, fun _ => { enqueue := false }]),
      ∀ execution ∈ (Machine.run (plainEngine.deliver orderCreated) (twoRules plainEngine)
        [fun id => { enqueue := id = 0 }, fun _ => { enqueue := false }]).store.executions,
      execution.ruleId = rule.id → ∀ job ∈ (Machine.run (plainEngine.deliver orderCreated)
        (twoRules plainEngine) [fun id => { enqueue := id = 0 }, fun _ => { enqueue := false }]).jobs,
      job.executionId ≠ execution.id := by
    decide +kernel
  obtain ⟨rule, hrule, hnone⟩ := horphan
  obtain ⟨execution, hsingle, job, hjob, hid, -⟩ := h rule hrule
  have hmem := List.mem_filter.mp (hsingle.symm ▸ List.mem_singleton_self execution)
  exact hnone execution hmem.1 (of_decide_eq_true hmem.2).1 job hjob hid

end DealFlow360.Automation
