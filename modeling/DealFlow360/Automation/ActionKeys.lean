import DealFlow360.Automation.ExactlyOnce

/-!
# Keys of effects

The handlers of emails and of analyses give what they hand over a key, for the
email service and the job queue to recognise a repetition. The key is made of
the execution's number alone, so it is the same for a retry of an action, and
for another action of the same type.

An effect is what a handler hands over, with the key it gives it.
`effectOf_eq_iff` says when two effects of one execution have one key, and
`ownEffects_iff_distinctTypes` says it of the whole content. That it is a
statement about what has been run comes from the module about exactly-once: a
succeeded execution has run every action of its content.

- `effects_own_iff`: the effects of a succeeded execution have keys of their
  own if and only if the types of its email and analysis actions differ;
- `emails_share_key`: two emails of one rule, the second of which is taken for
  a repetition.
-/

namespace DealFlow360.Automation

/-! ## Effects -/

namespace AutomationEngine

variable (engine : AutomationEngine)

/-- The actions that hand something over to the email service or to the job queue. -/
def handsOver (action : AutomationAction) : Bool :=
  action.type = "sendEmail" || (action.type = "queueAIAnalysis" && engine.queuesAnalysis)

/-- No two of the actions that hand something over are of one type. -/
def DistinctTypes (actions : List AutomationAction) : Prop :=
  actions.Pairwise fun first second => engine.handsOver first = true → first.type ≠ second.type

instance (actions : List AutomationAction) : Decidable (engine.DistinctTypes actions) :=
  inferInstanceAs (Decidable (actions.Pairwise _))

/-- What was handed over under the execution corresponds to the actions that hand something over: each of them
has done so, under a key that its retries use again and no other action uses. -/
structure OwnEffects (s : AutomationState) (executionId : Id) (actions : List AutomationAction) : Prop where
  handed : ∀ index action, actions[index]? = some action → engine.handsOver action = true →
    ∃ run ∈ s.handled, run.executionId = executionId ∧ run.actionIndex = index ∧ run.effect.isSome
  source : ∀ run ∈ s.handled, run.executionId = executionId → run.effect.isSome →
    ∃ action, actions[run.actionIndex]? = some action ∧ engine.handsOver action = true
  key : ∀ run ∈ s.handled, ∀ other ∈ s.handled, run.executionId = executionId →
    other.executionId = executionId → ∀ effect effect', run.effect = some effect →
      other.effect = some effect' → (effect = effect' ↔ run.actionIndex = other.actionIndex)

end AutomationEngine

section Effects

variable {engine : AutomationEngine} {executionId : Id} {action other : AutomationAction}

theorem isSome_effectOf : (engine.effectOf executionId action).isSome = engine.handsOver action := by
  unfold AutomationEngine.effectOf AutomationEngine.handsOver
  by_cases hemail : action.type = "sendEmail"
  · simp [hemail]
  · rw [if_neg hemail]
    by_cases hqueued : action.type = "queueAIAnalysis" ∧ engine.queuesAnalysis
    · simp [hqueued]
    · rw [if_neg hqueued]
      grind

/-- Effects of one execution are the same if and only if the types of their actions are. -/
theorem effectOf_eq_iff {effect effect' : Effect} (h : engine.effectOf executionId action = some effect)
    (h' : engine.effectOf executionId other = some effect') : effect = effect' ↔ action.type = other.type := by
  unfold AutomationEngine.effectOf at h h'
  grind

end Effects

/-! ## Runs -/

/-- What a handler has handed over is the effect of its action, and it has if it has succeeded. -/
def AutomationState.Honest (engine : AutomationEngine) (s : AutomationState) : Prop :=
  ∀ run ∈ s.handled,
    (∀ effect, run.effect = some effect → engine.effectOf run.executionId run.action = some effect) ∧
    (run.succeeded = true → run.effect = engine.effectOf run.executionId run.action)

section Runs

variable {engine : AutomationEngine} {s : AutomationState}

theorem honest_runAction (rule : AutomationRuleRecord) (execution : AutomationExecutionRecord)
    (actor : Option AutomationActor) (action : AutomationAction) (index : ℕ) (outcome : ActionOutcome)
    (hs : s.Honest engine) : (engine.runAction rule execution actor action index outcome s).2.Honest engine := by
  unfold AutomationEngine.runAction
  cases engine.checkAction rule actor action index with
  | error error => exact hs
  | ok parsed =>
      cases outcome with
      | succeeded =>
          intro run hmem
          rcases List.mem_append.mp hmem with hmem | hmem
          · exact hs run hmem
          · cases List.mem_singleton.mp hmem
            exact ⟨fun effect heffect => heffect, fun _ => rfl⟩
      | failed handed message =>
          intro run hmem
          rcases List.mem_append.mp hmem with hmem | hmem
          · exact hs run hmem
          · cases List.mem_singleton.mp hmem
            refine ⟨fun effect heffect => ?_, nofun⟩
            cases handed with
            | false => cases heffect
            | true => exact heffect

theorem honest_runActions (rule : AutomationRuleRecord) (execution : AutomationExecutionRecord)
    (actor : Option AutomationActor) (outcomes : ℕ → ActionOutcome) (actions : List AutomationAction) (index : ℕ)
    (hs : s.Honest engine) :
    (engine.runActions rule execution actor outcomes actions index s).2.Honest engine := by
  induction actions generalizing index s with
  | nil => exact hs
  | cons action actions ih =>
      unfold AutomationEngine.runActions
      split
      · exact ih (index + 1) hs
      · have hrun := honest_runAction rule execution actor action index (outcomes index) hs
        generalize engine.runAction rule execution actor action index (outcomes index) s = answer at hrun
        obtain ⟨result, s'⟩ := answer
        cases result with
        | some error => exact hrun
        | none => exact ih (index + 1) hrun

theorem honest_step (hs : s.Honest engine) (input : AutomationInput) : (s.step engine input).Honest engine := by
  cases input with
  | createRule | updateRule | setRuleEnabled | wait => exact hs
  | handleEvent event faults =>
      refine handleRules_keeps (fun rule _ s hs => ?_) hs
      have h := handledRule engine event (faults rule.id) rule s
      generalize engine.handleRule event (faults rule.id) rule s = answer at h
      cases h <;> exact hs
  | runExecution executionId actor outcomes =>
      show (engine.runExecution executionId actor outcomes s).2.Honest engine
      rcases runExecution_cases engine executionId actor outcomes s with
        hsame | ⟨execution, rule, answer, s', -, -, -, hrun, hend⟩
      · rw [hsame]
        exact hs
      · have hactions := honest_runActions rule (execution.started s.now) actor outcomes rule.actions 0
          (s := s.modifyExecution executionId fun _ => execution.started s.now) hs
        rw [hrun] at hactions
        rcases hend with ⟨-, hend⟩ | ⟨message, hend⟩
        · rw [hend]
          exact hactions
        · rw [hend]
          exact hactions

theorem honest_of_run (engine : AutomationEngine) (inputs : List AutomationInput) :
    (Machine.run (AutomationState.step engine) {} inputs).Honest engine :=
  Machine.invariant (I := AutomationState.Honest engine) (fun _ input hs => honest_step hs input)
    (fun _ hmem => absurd hmem List.not_mem_nil) inputs

end Runs

/-! ## Executions -/

section Executions

variable {engine : AutomationEngine} {s : AutomationState} {executionId : Id} {actions : List AutomationAction}

/-- Where all actions have been run, two actions have different keys if and only if their types differ. -/
theorem ownEffects_iff_distinctTypes (hs : s.Honest engine)
    (hreached : Reached s executionId actions actions.length) :
    engine.OwnEffects s executionId actions ↔ engine.DistinctTypes actions := by
  have heffect : ∀ run ∈ s.handled, run.executionId = executionId → ∀ effect, run.effect = some effect →
      engine.effectOf executionId run.action = some effect := by
    intro run hmem hid effect heffect
    rw [← hid]
    exact (hs run hmem).1 effect heffect
  have hhanded : ∀ index action, actions[index]? = some action → engine.handsOver action = true →
      ∃ run ∈ s.handled, run.executionId = executionId ∧ run.actionIndex = index ∧ run.effect.isSome := by
    intro index action haction hhands
    have hlt := (List.getElem?_eq_some_iff.mp haction).1
    obtain ⟨run, hmem, hid, hindex, hsucceeded⟩ := hreached.succeeded index hlt
    have hsame := hreached.handled run hmem hid
    rw [hindex, haction] at hsame
    refine ⟨run, hmem, hid, hindex, ?_⟩
    rw [(hs run hmem).2 hsucceeded, isSome_effectOf, ← Option.some.inj hsame]
    exact hhands
  unfold AutomationEngine.DistinctTypes
  rw [List.pairwise_iff_getElem]
  constructor
  · rintro ⟨-, -, hkey⟩ i j hi hj hlt hhands htypes
    have hhands' : engine.handsOver actions[j] = true := by
      unfold AutomationEngine.handsOver at hhands ⊢
      rwa [← htypes]
    obtain ⟨run, hmem, hid, hindex, hsome⟩ := hhanded i _ (List.getElem?_eq_getElem hi) hhands
    obtain ⟨other, hmem', hid', hindex', hsome'⟩ := hhanded j _ (List.getElem?_eq_getElem hj) hhands'
    obtain ⟨effect, heq⟩ := Option.isSome_iff_exists.mp hsome
    obtain ⟨effect', heq'⟩ := Option.isSome_iff_exists.mp hsome'
    have haction := hreached.handled run hmem hid
    have haction' := hreached.handled other hmem' hid'
    rw [hindex, List.getElem?_eq_getElem hi] at haction
    rw [hindex', List.getElem?_eq_getElem hj] at haction'
    have hshared : effect = effect' := by
      rw [effectOf_eq_iff (heffect run hmem hid effect heq) (heffect other hmem' hid' effect' heq'),
        ← Option.some.inj haction, ← Option.some.inj haction']
      exact htypes
    have hsame := (hkey run hmem other hmem' hid hid' effect effect' heq heq').mp hshared
    omega
  · intro hdistinct
    refine ⟨hhanded, ?_, ?_⟩
    · intro run hmem hid hsome
      obtain ⟨effect, heq⟩ := Option.isSome_iff_exists.mp hsome
      refine ⟨run.action, hreached.handled run hmem hid, ?_⟩
      rw [← @isSome_effectOf _ executionId, heffect run hmem hid effect heq]
      rfl
    · intro run hmem other hmem' hid hid' effect effect' heq heq'
      have haction := hreached.handled run hmem hid
      have haction' := hreached.handled other hmem' hid'
      have hown := heffect run hmem hid effect heq
      have hown' := heffect other hmem' hid' effect' heq'
      rw [effectOf_eq_iff hown hown']
      constructor
      · intro htypes
        obtain ⟨hi, hget⟩ := List.getElem?_eq_some_iff.mp haction
        obtain ⟨hj, hget'⟩ := List.getElem?_eq_some_iff.mp haction'
        have hhands : engine.handsOver run.action = true := by
          rw [← @isSome_effectOf _ executionId, hown]
          rfl
        have hhands' : engine.handsOver other.action = true := by
          rw [← @isSome_effectOf _ executionId, hown']
          rfl
        rcases lt_trichotomy run.actionIndex other.actionIndex with hlt | heq | hlt
        · exact absurd (by rw [hget, hget', htypes]) (hdistinct _ _ hi hj hlt (by rwa [hget]))
        · exact heq
        · exact absurd (by rw [hget, hget', htypes]) (hdistinct _ _ hj hi hlt (by rwa [hget']))
      · intro hindex
        rw [hindex, haction'] at haction
        rw [Option.some.inj haction]

/-- The effects of an execution that has succeeded, where no attempt has found an action that was missing moved
or changed: each action that hands something over has its own if and only if no two of these are of one type. -/
theorem effects_own_iff (engine : AutomationEngine) (inputs : List AutomationInput) (executionId : Id)
    (hfinds : Machine.Meets (AutomationState.step engine) (AutomationState.FindsMatched executionId) {} inputs)
    (execution : AutomationExecutionRecord)
    (hexecution : execution ∈ (Machine.run (AutomationState.step engine) {} inputs).store.executions)
    (hid : execution.id = executionId) (hsucceeded : execution.status = .succeeded) (matched : MatchedRule)
    (hmatched : matched ∈ (Machine.run (AutomationState.step engine) {} inputs).matched)
    (hmid : matched.executionId = executionId) :
    engine.OwnEffects (Machine.run (AutomationState.step engine) {} inputs) executionId matched.rule.actions ↔
      engine.DistinctTypes matched.rule.actions := by
  obtain ⟨k, hreached, hstatus⟩ := (progress_of_meets engine hfinds).reached matched hmatched hmid
  rw [hstatus execution hexecution hid hsucceeded] at hreached
  exact ownEffects_iff_distinctTypes (honest_of_run engine inputs) hreached

end Executions

/-- One email, whose key its only action uses. -/
theorem email_own_key : ∃ matched ∈
    (Machine.run (AutomationState.step mailingEngine) {} (mailSent ++ [secondAttempt])).matched,
    mailingEngine.OwnEffects
      (Machine.run (AutomationState.step mailingEngine) {} (mailSent ++ [secondAttempt])) 0 matched.rule.actions := by
  have hdone : ∃ execution ∈
      (Machine.run (AutomationState.step mailingEngine) {} (mailSent ++ [secondAttempt])).store.executions,
      execution.id = 0 ∧ execution.status = .succeeded := by
    decide
  have hmatched : ∃ matched ∈
      (Machine.run (AutomationState.step mailingEngine) {} (mailSent ++ [secondAttempt])).matched,
      matched.executionId = 0 ∧ mailingEngine.DistinctTypes matched.rule.actions := by
    decide
  obtain ⟨execution, hexecution, hid, hsucceeded⟩ := hdone
  obtain ⟨matched, hmem, hmid, hdistinct⟩ := hmatched
  exact ⟨matched, hmem, (effects_own_iff mailingEngine _ 0 findsMatched_secondAttempt execution hexecution hid
    hsucceeded matched hmem hmid).mpr hdistinct⟩

/-- A rule that sends two emails, and its execution. -/
def twoEmails : AutomationState :=
  Machine.run (AutomationState.step mailingEngine) {}
    [.createRule
        { enabled := true, trigger := "order.created", actions := [{ type := "sendEmail" }, { type := "sendEmail" }] },
      .handleEvent orderCreated fun _ => {}, .runExecution 0 none fun _ => .succeeded]

/-- The second email has the key of the first. -/
theorem emails_share_key :
    (∃ execution ∈ twoEmails.store.executions, execution.id = 0 ∧ execution.status = .succeeded) ∧
      ∀ matched ∈ twoEmails.matched, ¬ mailingEngine.OwnEffects twoEmails 0 matched.rule.actions := by
  refine ⟨by decide, fun matched _ h => ?_⟩
  have hshared : ∃ run ∈ twoEmails.handled, ∃ other ∈ twoEmails.handled, run.executionId = 0 ∧
      other.executionId = 0 ∧ run.effect = some (.email "0:sendEmail") ∧
      other.effect = some (.email "0:sendEmail") ∧ run.actionIndex ≠ other.actionIndex := by
    decide
  obtain ⟨run, hmem, other, hmem', hid, hid', heffect, heffect', hne⟩ := hshared
  exact hne ((h.key run hmem other hmem' hid hid' _ _ heffect heffect').mp rfl)

end DealFlow360.Automation
