import DealFlow360.Automation.EventDelivery

/-!
# Actions of an execution

Progress is recorded by the index of an action, and every attempt reads the
rule again. The actions that have succeeded are the first ones of the content
that matched, as long as no edit moves or changes an action that has not
succeeded yet.

`Reached` compares what has succeeded with the content that matched: it is the
first actions of it. One action run from the right place makes it one longer;
an attempt that finds the rest of the content where it was goes on from there
(`reached_runExecution`); and the run lemma carries it through events, edits
and attempts.

`actions_exactly_once` then says of every run: where no attempt finds a missing
action moved or changed, an execution that has succeeded ran every action of
its content once. `action_completed_twice` moves an email behind a new action
between two attempts, and it is sent again.
-/

namespace DealFlow360.Automation

namespace AutomationState

/-- The actions that have completed successfully under the execution, in their order. -/
def completedActions (s : AutomationState) (executionId : Id) : List AutomationAction :=
  (s.handled.filter fun run => run.executionId = executionId && run.succeeded).map HandlerRun.action

/-- Each action of the content that matched has completed once under the execution, and no other action has
been run under it. -/
def RanMatched (s : AutomationState) (executionId : Id) : Prop :=
  ∃ matched ∈ s.matched, matched.executionId = executionId ∧
    s.completedActions executionId = matched.rule.actions ∧
    ∀ run ∈ s.handled, run.executionId = executionId → run.action ∈ matched.rule.actions

/-- An attempt of the execution finds the actions that have not succeeded yet where they were when the rule
matched. -/
def FindsMatched (executionId : Id) (s : AutomationState) : AutomationInput → Prop
  | .runExecution id _ _ => id = executionId →
      ∀ execution, s.store.getExecution id = some execution → execution.status ≠ .succeeded →
        ∀ rule, s.store.getRule execution.ruleId = some rule →
          ∀ matched ∈ s.matched, matched.executionId = id →
            ∀ index, execution.succeededAt index = false →
              rule.actions[index]? = matched.rule.actions[index]?
  | _ => True

end AutomationState

/-! ## Progress -/

/-- Under the execution the first `k` actions have succeeded, and every run was of the list's action at its
index. -/
structure Reached (s : AutomationState) (executionId : Id) (actions : List AutomationAction) (k : ℕ) : Prop where
  bound : k ≤ actions.length
  runs : ∀ execution ∈ s.store.executions, execution.id = executionId →
    ∀ index, execution.succeededAt index = true ↔ index < k
  completed : s.completedActions executionId = actions.take k
  succeeded : ∀ index < k, ∃ run ∈ s.handled,
    run.executionId = executionId ∧ run.actionIndex = index ∧ run.succeeded = true
  handled : ∀ run ∈ s.handled, run.executionId = executionId → actions[run.actionIndex]? = some run.action

/-- Only the one execution has been worked on. -/
structure Elsewhere (executionId : Id) (s s' : AutomationState) : Prop where
  executions : ∀ execution ∈ s'.store.executions, execution.id ≠ executionId → execution ∈ s.store.executions
  handled : ∀ other, other ≠ executionId →
    (s'.handled.filter fun run => run.executionId = other) = s.handled.filter fun run => run.executionId = other
  matched : s'.matched = s.matched
  nextExecution : s'.store.nextExecution = s.store.nextExecution

section Progress

variable {s s' : AutomationState} {executionId : Id} {actions : List AutomationAction} {k : ℕ}

theorem completedActions_eq (s : AutomationState) (executionId : Id) :
    s.completedActions executionId =
      (((s.handled.filter fun run => run.executionId = executionId).filter HandlerRun.succeeded).map
        HandlerRun.action) := by
  unfold AutomationState.completedActions
  rw [List.filter_filter]
  simp only [Bool.and_comm]

theorem Elsewhere.refl (executionId : Id) (s : AutomationState) : Elsewhere executionId s s :=
  ⟨fun _ h _ => h, fun _ _ => rfl, rfl, rfl⟩

theorem Elsewhere.trans {s'' : AutomationState} (h : Elsewhere executionId s s')
    (h' : Elsewhere executionId s' s'') : Elsewhere executionId s s'' where
  executions execution hmem hne := h.executions execution (h'.executions execution hmem hne) hne
  handled other hne := (h'.handled other hne).trans (h.handled other hne)
  matched := h'.matched.trans h.matched
  nextExecution := h'.nextExecution.trans h.nextExecution

theorem Elsewhere.mem_handled (h : Elsewhere executionId s s') {run : HandlerRun}
    (hne : run.executionId ≠ executionId) : run ∈ s'.handled ↔ run ∈ s.handled := by
  have hown (runs : List HandlerRun) :
      run ∈ runs ↔ run ∈ runs.filter fun other => other.executionId = run.executionId := by
    simp
  rw [hown s'.handled, hown s.handled, h.handled run.executionId hne]

/-- What has been reached under another execution. -/
theorem Reached.elsewhere (h : Reached s executionId actions k) {other : Id} (hne : executionId ≠ other)
    (helsewhere : Elsewhere other s s') : Reached s' executionId actions k where
  bound := h.bound
  runs execution hmem hid := h.runs execution (helsewhere.executions execution hmem (hid ▸ hne)) hid
  completed := by
    rw [completedActions_eq, helsewhere.handled executionId hne, ← completedActions_eq]
    exact h.completed
  succeeded index hlt := by
    obtain ⟨run, hmem, hid, hrun⟩ := h.succeeded index hlt
    exact ⟨run, (helsewhere.mem_handled (hid ▸ hne)).mpr hmem, hid, hrun⟩
  handled run hmem hid := h.handled run ((helsewhere.mem_handled (hid ▸ hne)).mp hmem) hid

theorem elsewhere_modifyExecution (s : AutomationState) (executionId : Id)
    (f : AutomationExecutionRecord → AutomationExecutionRecord)
    (hf : ∀ e, e.id = executionId → (f e).id = executionId) :
    Elsewhere executionId s (s.modifyExecution executionId f) where
  executions execution hmem hne := by
    obtain ⟨before, hbefore, rfl⟩ := List.mem_map.mp hmem
    split at hne
    · rename_i hid
      exact absurd (hf before hid) hne
    · rename_i hid
      rw [if_neg hid]
      exact hbefore
  handled _ _ := rfl
  matched := rfl
  nextExecution := rfl

theorem reached_modifyExecution (h : Reached s executionId actions k)
    {f : AutomationExecutionRecord → AutomationExecutionRecord}
    (hf : ∀ execution ∈ s.store.executions, execution.id = executionId →
      ∀ index, (f execution).succeededAt index = execution.succeededAt index) :
    Reached (s.modifyExecution executionId f) executionId actions k where
  bound := h.bound
  runs execution hmem hid index := by
    obtain ⟨before, hbefore, rfl⟩ := List.mem_map.mp hmem
    split at hid
    · rename_i hsame
      rw [if_pos hsame, hf before hbefore hsame]
      exact h.runs before hbefore hsame index
    · rename_i hother
      exact absurd hid hother
  completed := h.completed
  succeeded := h.succeeded
  handled := h.handled

theorem succeededAt_withRun (execution : AutomationExecutionRecord) (input : UpsertActionRunInput) (index : ℕ) :
    (execution.withRun input).succeededAt index =
      if input.actionIndex = index then decide (input.status = .succeeded) else execution.succeededAt index := by
  unfold AutomationExecutionRecord.succeededAt AutomationExecutionRecord.run AutomationExecutionRecord.withRun
  dsimp only
  rw [Table.lookup_upsert]
  split
  · rename_i existing hexisting
    have hkey : existing.actionIndex = input.actionIndex := Table.key_of_lookup hexisting
    dsimp only
    rw [hkey]
    split <;> rfl
  · dsimp only
    split <;> rfl

/-- What an upsert makes of the actions recorded as succeeded. -/
theorem runs_upsertActionRun {store : AutomationStore} {input : UpsertActionRunInput} {p : ℕ → Prop}
    (h : ∀ execution ∈ store.executions, execution.id = input.executionId →
      ∀ index, execution.succeededAt index = true ↔ p index) :
    ∀ execution ∈ (store.upsertActionRun input).executions, execution.id = input.executionId →
      ∀ index, execution.succeededAt index = true ↔
        if input.actionIndex = index then input.status = .succeeded else p index := by
  intro execution hmem hid index
  obtain ⟨before, hbefore, rfl⟩ := List.mem_map.mp hmem
  split at hid
  · rename_i hsame
    rw [if_pos hsame, succeededAt_withRun]
    by_cases hindex : input.actionIndex = index
    · rw [if_pos hindex, if_pos hindex, decide_eq_true_iff]
    · rw [if_neg hindex, if_neg hindex]
      exact h before hbefore hsame index
  · rename_i hother
    exact absurd hid hother

end Progress

/-! ## One action -/

section Action

variable {engine : AutomationEngine} {rule : AutomationRuleRecord} {execution : AutomationExecutionRecord}
  {actor : Option AutomationActor} {action : AutomationAction} {outcome : ActionOutcome} {s : AutomationState}
  {actions : List AutomationAction} {index : ℕ}

/-- An action that is started is recorded as running and then as what its handler makes of it, and the call is
logged. -/
structure ActionRun (executionId : Id) (action : AutomationAction) (index : ℕ) (succeeded : Bool)
    (s s' : AutomationState) : Prop where
  store : ∃ started finished : UpsertActionRunInput,
    started.executionId = executionId ∧ started.actionIndex = index ∧ started.status = .running ∧
    finished.executionId = executionId ∧ finished.actionIndex = index ∧
    finished.status = (if succeeded then .succeeded else .failed) ∧
    s'.store = (s.store.upsertActionRun started).upsertActionRun finished
  handled : ∃ effect, s'.handled = s.handled ++ [{ executionId, actionIndex := index, action, effect, succeeded }]
  matched : s'.matched = s.matched

/-- An action is refused, or its handler is called and fails or succeeds. -/
theorem runAction_cases (engine : AutomationEngine) (rule : AutomationRuleRecord)
    (execution : AutomationExecutionRecord) (actor : Option AutomationActor) (action : AutomationAction)
    (index : ℕ) (outcome : ActionOutcome) (s : AutomationState) :
    (∃ error, engine.runAction rule execution actor action index outcome s = (some error, s)) ∨
      (∃ error s', engine.runAction rule execution actor action index outcome s = (some error, s') ∧
        ActionRun execution.id action index false s s') ∨
      ∃ s', engine.runAction rule execution actor action index outcome s = (none, s') ∧
        ActionRun execution.id action index true s s' := by
  unfold AutomationEngine.runAction
  cases engine.checkAction rule actor action index with
  | error error => exact .inl ⟨error, rfl⟩
  | ok parsed =>
      right
      cases outcome with
      | succeeded =>
          right
          refine ⟨_, rfl, ⟨?_, ⟨_, rfl⟩, rfl⟩⟩
          exact ⟨_, _, rfl, rfl, rfl, rfl, rfl, rfl, rfl⟩
      | failed handed message =>
          left
          refine ⟨_, _, rfl, ⟨?_, ⟨_, rfl⟩, rfl⟩⟩
          exact ⟨_, _, rfl, rfl, rfl, rfl, rfl, rfl, rfl⟩

variable {executionId : Id} {succeeded : Bool} {s' : AutomationState} {k : ℕ}

theorem ActionRun.elsewhere (h : ActionRun executionId action index succeeded s s') :
    Elsewhere executionId s s' := by
  obtain ⟨⟨started, finished, hstarted, -, -, hfinished, -, -, hstore⟩, ⟨effect, hhandled⟩, hmatched⟩ := h
  refine ⟨?_, ?_, hmatched, ?_⟩
  · intro execution hmem hne
    rw [hstore] at hmem
    obtain ⟨before, hbefore, rfl⟩ := List.mem_map.mp hmem
    split at hne
    · rename_i hid
      exact absurd (hid.trans hfinished) hne
    · rename_i hid
      rw [if_neg hid] at hmem ⊢
      obtain ⟨first, hfirst, rfl⟩ := List.mem_map.mp hbefore
      split at hne
      · rename_i hid
        exact absurd (hid.trans hstarted) hne
      · rename_i hid
        rw [if_neg hid]
        exact hfirst
  · intro other hne
    rw [hhandled, List.filter_append]
    have hnone : ([{ executionId, actionIndex := index, action, effect, succeeded }] : List HandlerRun).filter
        (fun run => run.executionId = other) = [] :=
      List.filter_eq_nil_iff.mpr fun run hrun => by
        cases List.mem_singleton.mp hrun
        exact fun hid => hne (of_decide_eq_true hid).symm
    rw [hnone, List.append_nil]
  · rw [hstore]
    rfl

/-- The next action of the list has been run. -/
theorem ActionRun.reached (h : ActionRun executionId action k succeeded s s') (hs : Reached s executionId actions k)
    (haction : actions[k]? = some action) :
    Reached s' executionId actions (if succeeded then k + 1 else k) := by
  obtain ⟨⟨started, finished, hstarted, hindex, hstatus, hfinished, hindex', hstatus', hstore⟩,
    ⟨effect, hhandled⟩, -⟩ := h
  have hlt : k < actions.length := (List.getElem?_eq_some_iff.mp haction).1
  refine ⟨?_, ?_, ?_, ?_, ?_⟩
  · cases succeeded with
    | false => exact hs.bound
    | true => exact hlt
  · have hruns := @runs_upsertActionRun _ finished _
      (hfinished ▸ hstarted ▸ @runs_upsertActionRun _ started _ (hstarted ▸ hs.runs))
    rw [← hstore, hindex, hindex', hstatus, hstatus', hfinished] at hruns
    intro execution hmem hid index
    rw [hruns execution hmem hid index]
    cases succeeded with
    | false =>
        by_cases hindex : k = index
        · rw [if_pos hindex]
          exact iff_of_false nofun fun hlt => (hindex ▸ hlt).false
        · rw [if_neg hindex, if_neg hindex]
          exact Iff.rfl
    | true =>
        by_cases hindex : k = index
        · rw [if_pos hindex]
          exact iff_of_true rfl (hindex ▸ Nat.lt_succ_self k)
        · rw [if_neg hindex, if_neg hindex]
          exact (show index < k ↔ index < k + 1 by omega)
  · have hsnoc : actions.take (k + 1) = actions.take k ++ [action] := by
      rw [List.take_add_one, haction]
      rfl
    rw [completedActions_eq, hhandled, List.filter_append, List.filter_append, List.map_append,
      ← completedActions_eq, hs.completed]
    cases succeeded with
    | false => simp
    | true => simp [hsnoc]
  · rw [hhandled]
    intro index hindex
    have hold (hlt : index < k) : ∃ run ∈ s.handled ++ [{ executionId, actionIndex := k, action, effect, succeeded }],
        run.executionId = executionId ∧ run.actionIndex = index ∧ run.succeeded = true := by
      obtain ⟨run, hmem, hrun⟩ := hs.succeeded index hlt
      exact ⟨run, List.mem_append_left _ hmem, hrun⟩
    cases succeeded with
    | false => exact hold hindex
    | true =>
        rcases Nat.lt_succ_iff_lt_or_eq.mp hindex with hlt | rfl
        · exact hold hlt
        · exact ⟨_, List.mem_append_right _ (List.mem_singleton_self _), rfl, rfl, rfl⟩
  · intro run hmem hid
    rw [hhandled] at hmem
    rcases List.mem_append.mp hmem with hmem | hmem
    · exact hs.handled run hmem hid
    · cases List.mem_singleton.mp hmem
      exact haction

end Action

/-! ## One attempt -/

section Attempt

variable {engine : AutomationEngine} {rule : AutomationRuleRecord} {execution : AutomationExecutionRecord}
  {actor : Option AutomationActor} {outcomes : ℕ → ActionOutcome} {s : AutomationState}
  {actions remaining : List AutomationAction} {index known : ℕ}

/-- The loop runs the actions that are missing, in their order, and stops at the first that fails. `known` is
what the attempt knew to have succeeded when it began. -/
theorem reached_runActions (hknown : ∀ index, execution.succeededAt index = true ↔ index < known)
    (hsame : ∀ offset, known ≤ index + offset → remaining[offset]? = actions[index + offset]?)
    (hs : Reached s execution.id actions (max known index)) :
    ∃ k, Reached (engine.runActions rule execution actor outcomes remaining index s).2 execution.id actions k ∧
      ((engine.runActions rule execution actor outcomes remaining index s).1 = none → k = actions.length) := by
  induction remaining generalizing index s with
  | nil =>
      refine ⟨max known index, hs, fun _ => ?_⟩
      have hend := hsame (max known index - index) (by omega)
      rw [Nat.add_sub_cancel' (le_max_right known index), List.getElem?_nil] at hend
      exact le_antisymm hs.bound (List.getElem?_eq_none_iff.mp hend.symm)
  | cons action remaining ih =>
      have hrest : ∀ offset, known ≤ index + 1 + offset → remaining[offset]? = actions[index + 1 + offset]? := by
        intro offset hoffset
        have hnext := hsame (offset + 1) (by omega)
        rw [List.getElem?_cons_succ] at hnext
        rw [hnext]
        congr 1
        omega
      unfold AutomationEngine.runActions
      by_cases hdone : execution.succeededAt index = true
      · rw [if_pos hdone]
        refine ih hrest ?_
        have hlt := (hknown index).mp hdone
        rwa [max_eq_left (by omega), ← max_eq_left (show index ≤ known by omega)]
      · rw [if_neg hdone]
        have hle : known ≤ index := by
          by_contra hlt
          exact hdone ((hknown index).mpr (by omega))
        rw [max_eq_right hle] at hs
        have haction : actions[index]? = some action := by
          rw [← Nat.add_zero index, ← hsame 0 hle]
          rfl
        rcases runAction_cases engine rule execution actor action index (outcomes index) s with
          ⟨error, hrun⟩ | ⟨error, s', hrun, hdoes⟩ | ⟨s', hrun, hdoes⟩
        · rw [hrun]
          exact ⟨index, hs, fun h => absurd h (Option.some_ne_none error)⟩
        · rw [hrun]
          exact ⟨index, hdoes.reached hs haction, fun h => absurd h (Option.some_ne_none error)⟩
        · rw [hrun]
          refine ih hrest ?_
          rw [max_eq_right (by omega)]
          exact hdoes.reached hs haction

theorem elsewhere_runActions (engine : AutomationEngine) (rule : AutomationRuleRecord)
    (execution : AutomationExecutionRecord) (actor : Option AutomationActor) (outcomes : ℕ → ActionOutcome)
    (remaining : List AutomationAction) (index : ℕ) (s : AutomationState) :
    Elsewhere execution.id s (engine.runActions rule execution actor outcomes remaining index s).2 := by
  induction remaining generalizing index s with
  | nil => exact .refl _ s
  | cons action remaining ih =>
      unfold AutomationEngine.runActions
      split
      · exact ih (index + 1) s
      · rcases runAction_cases engine rule execution actor action index (outcomes index) s with
          ⟨error, hrun⟩ | ⟨error, s', hrun, hdoes⟩ | ⟨s', hrun, hdoes⟩
        · rw [hrun]
          exact .refl _ s
        · rw [hrun]
          exact hdoes.elsewhere
        · rw [hrun]
          exact hdoes.elsewhere.trans (ih (index + 1) s')

/-- An attempt ends before it begins, or it marks the execution as running, runs the actions and marks it as
succeeded or as failed. -/
theorem runExecution_cases (engine : AutomationEngine) (executionId : Id) (actor : Option AutomationActor)
    (outcomes : ℕ → ActionOutcome) (s : AutomationState) :
    (engine.runExecution executionId actor outcomes s).2 = s ∨
      ∃ execution rule answer s', s.store.getExecution executionId = some execution ∧
        execution.status ≠ .succeeded ∧ s.store.getRule execution.ruleId = some rule ∧
        engine.runActions rule (execution.started s.now) actor outcomes rule.actions 0
          (s.modifyExecution executionId fun _ => execution.started s.now) = (answer, s') ∧
        ((answer = none ∧
            (engine.runExecution executionId actor outcomes s).2 =
              s'.modifyExecution executionId (·.completed s.now)) ∨
          ∃ message, (engine.runExecution executionId actor outcomes s).2 =
            s'.modifyExecution executionId (·.failed s.now message)) := by
  unfold AutomationEngine.runExecution
  cases hexecution : s.store.getExecution executionId with
  | none => exact .inl rfl
  | some execution =>
      dsimp only
      by_cases hstatus : execution.status = .succeeded
      · rw [if_pos hstatus]
        exact .inl rfl
      · rw [if_neg hstatus]
        cases hrule : s.store.getRule execution.ruleId with
        | none => exact .inl rfl
        | some rule =>
            dsimp only
            right
            cases hrun : engine.runActions rule (execution.started s.now) actor outcomes rule.actions 0
                (s.modifyExecution executionId fun _ => execution.started s.now) with
            | mk answer s' =>
                refine ⟨execution, rule, answer, s', rfl, hstatus, hrule, hrun, ?_⟩
                cases answer with
                | none => exact .inl ⟨rfl, rfl⟩
                | some error => exact .inr ⟨_, rfl⟩

variable {executionId : Id} {k : ℕ}

theorem elsewhere_runExecution (engine : AutomationEngine) (executionId : Id) (actor : Option AutomationActor)
    (outcomes : ℕ → ActionOutcome) (s : AutomationState) :
    Elsewhere executionId s (engine.runExecution executionId actor outcomes s).2 := by
  rcases runExecution_cases engine executionId actor outcomes s with
    hsame | ⟨execution, rule, answer, s', hexecution, -, -, hrun, hend⟩
  · rw [hsame]
    exact .refl _ s
  · have hid : execution.id = executionId := Table.key_of_lookup hexecution
    have hstart := elsewhere_modifyExecution s executionId (fun _ => execution.started s.now) fun _ _ => hid
    have hactions := elsewhere_runActions engine rule (execution.started s.now) actor outcomes rule.actions 0
      (s.modifyExecution executionId fun _ => execution.started s.now)
    rw [hrun, show (execution.started s.now).id = executionId from hid] at hactions
    refine hstart.trans (hactions.trans ?_)
    rcases hend with ⟨-, hend⟩ | ⟨message, hend⟩
    · rw [hend]
      exact elsewhere_modifyExecution s' executionId _ fun _ hsame => hsame
    · rw [hend]
      exact elsewhere_modifyExecution s' executionId _ fun _ hsame => hsame

/-- An attempt that finds what is missing where it was goes on from what has succeeded; where it ends as
succeeded, nothing is missing any more. -/
theorem reached_runExecution (hs : Reached s executionId actions k)
    (hstatus : ∀ execution ∈ s.store.executions, execution.id = executionId →
      execution.status = .succeeded → k = actions.length)
    (hfinds : ∀ execution, s.store.getExecution executionId = some execution → execution.status ≠ .succeeded →
      ∀ rule, s.store.getRule execution.ruleId = some rule →
        ∀ index, execution.succeededAt index = false → rule.actions[index]? = actions[index]?) :
    ∃ k', Reached (engine.runExecution executionId actor outcomes s).2 executionId actions k' ∧
      ∀ execution ∈ (engine.runExecution executionId actor outcomes s).2.store.executions,
        execution.id = executionId → execution.status = .succeeded → k' = actions.length := by
  rcases runExecution_cases engine executionId actor outcomes s with
    hsame | ⟨execution, rule, answer, s', hexecution, hopen, hrule, hrun, hend⟩
  · rw [hsame]
    exact ⟨k, hs, hstatus⟩
  · have hid : execution.id = executionId := Table.key_of_lookup hexecution
    have hknown := hs.runs execution (Table.mem_of_lookup hexecution) hid
    have hstarted : Reached (s.modifyExecution executionId fun _ => execution.started s.now)
        (execution.started s.now).id actions (max k 0) := by
      rw [Nat.max_zero, show (execution.started s.now).id = executionId from hid]
      refine reached_modifyExecution hs fun other hother hotherid index => ?_
      rw [Bool.eq_iff_iff, hs.runs other hother hotherid]
      exact hknown index
    have hrest : ∀ offset, k ≤ 0 + offset → rule.actions[offset]? = actions[0 + offset]? := by
      intro offset hoffset
      rw [Nat.zero_add] at hoffset ⊢
      refine hfinds execution hexecution hopen rule hrule offset ?_
      rw [Bool.eq_false_iff, Ne, hknown]
      exact Nat.not_lt.mpr hoffset
    obtain ⟨k', hreached, hcomplete⟩ := @reached_runActions engine rule (execution.started s.now) actor outcomes
      _ _ _ _ _ hknown hrest hstarted
    rw [hrun, show (execution.started s.now).id = executionId from hid] at hreached
    rw [hrun] at hcomplete
    refine ⟨k', ?_⟩
    rcases hend with ⟨hanswer, hend⟩ | ⟨message, hend⟩
    · rw [hend]
      exact ⟨reached_modifyExecution hreached fun _ _ _ _ => rfl, fun _ _ _ _ => hcomplete hanswer⟩
    · rw [hend]
      refine ⟨reached_modifyExecution hreached fun _ _ _ _ => rfl, ?_⟩
      intro other hother hotherid hsucceeded
      obtain ⟨before, hbefore, rfl⟩ := List.mem_map.mp hother
      split at hotherid
      · rename_i hsame
        rw [if_pos hsame] at hsucceeded
        cases hsucceeded
      · rename_i hne
        exact absurd hotherid hne

end Attempt

/-! ## Every run -/

/-- If the execution is there, it has its matched rule and has come so far with the actions of that. -/
structure Progress (executionId : Id) (s : AutomationState) : Prop where
  indexed : s.Indexed
  handled_lt : ∀ run ∈ s.handled, run.executionId < s.store.nextExecution
  matched_lt : ∀ matched ∈ s.matched, matched.executionId < s.store.nextExecution
  reached : ∀ matched ∈ s.matched, matched.executionId = executionId →
    ∃ k, Reached s executionId matched.rule.actions k ∧
      ∀ execution ∈ s.store.executions, execution.id = executionId → execution.status = .succeeded →
        k = matched.rule.actions.length
  matched : ∀ execution ∈ s.store.executions, ∃ matched ∈ s.matched, matched.executionId = execution.id

section Runs

variable {engine : AutomationEngine} {event : DomainEvent} {s : AutomationState} {executionId : Id}

/-- A new execution has no action done, and the others are where they were. -/
theorem progress_withExecution (hs : Progress executionId s) (rule : AutomationRuleRecord) :
    Progress executionId (s.withExecution event rule) where
  indexed := indexed_withExecution hs.indexed
  handled_lt run hrun := (hs.handled_lt run hrun).trans (Nat.lt_succ_self _)
  matched_lt matched hmem := by
    rcases List.mem_append.mp hmem with hmem | hmem
    · exact (hs.matched_lt matched hmem).trans (Nat.lt_succ_self _)
    · cases List.mem_singleton.mp hmem
      exact Nat.lt_succ_self _
  reached matched hmem hid := by
    rcases List.mem_append.mp hmem with hmem | hmem
    · obtain ⟨k, hreached, hstatus⟩ := hs.reached matched hmem hid
      refine ⟨k, ⟨hreached.bound, ?_, hreached.completed, hreached.succeeded, hreached.handled⟩, ?_⟩
      · intro execution hexecution hsame
        rcases List.mem_append.mp hexecution with hexecution | hexecution
        · exact hreached.runs execution hexecution hsame
        · cases List.mem_singleton.mp hexecution
          exact absurd (hid.trans hsame.symm) (hs.matched_lt matched hmem).ne
      · intro execution hexecution hsame hsucceeded
        rcases List.mem_append.mp hexecution with hexecution | hexecution
        · exact hstatus execution hexecution hsame hsucceeded
        · cases List.mem_singleton.mp hexecution
          cases hsucceeded
    · cases List.mem_singleton.mp hmem
      cases hid
      have hnew : ∀ run ∈ s.handled, run.executionId ≠ s.store.nextExecution :=
        fun run hrun => (hs.handled_lt run hrun).ne
      have hnone : (s.handled.filter fun run => run.executionId = s.store.nextExecution) = [] :=
        List.filter_eq_nil_iff.mpr fun run hrun hsame => hnew run hrun (of_decide_eq_true hsame)
      refine ⟨0, ⟨Nat.zero_le _, ?_, ?_, ?_, ?_⟩, ?_⟩
      · intro execution hexecution hsame
        rcases List.mem_append.mp hexecution with hexecution | hexecution
        · exact absurd hsame (hs.indexed.execution_lt execution hexecution).ne
        · cases List.mem_singleton.mp hexecution
          exact fun index => iff_of_false Bool.false_ne_true (Nat.not_lt_zero index)
      · rw [completedActions_eq]
        show (((s.handled.filter fun run => run.executionId = s.store.nextExecution).filter _).map _) = []
        rw [hnone]
        rfl
      · exact fun index hlt => absurd hlt (Nat.not_lt_zero index)
      · exact fun run hrun hsame => absurd hsame (hnew run hrun)
      · intro execution hexecution hsame hsucceeded
        rcases List.mem_append.mp hexecution with hexecution | hexecution
        · exact absurd hsame (hs.indexed.execution_lt execution hexecution).ne
        · cases List.mem_singleton.mp hexecution
          cases hsucceeded
  matched execution hmem := by
    rcases List.mem_append.mp hmem with hmem | hmem
    · obtain ⟨matched, hmatched, hid⟩ := hs.matched execution hmem
      exact ⟨matched, List.mem_append_left _ hmatched, hid⟩
    · cases List.mem_singleton.mp hmem
      exact ⟨_, List.mem_append_right _ (List.mem_singleton_self _), rfl⟩

/-- What says nothing of rules and jobs. -/
theorem progress_congr {s' : AutomationState} (hs : Progress executionId s) (hindexed : s'.Indexed)
    (hexecutions : s'.store.executions = s.store.executions)
    (hnext : s'.store.nextExecution = s.store.nextExecution) (hmatched : s'.matched = s.matched)
    (hhandled : s'.handled = s.handled) : Progress executionId s' where
  indexed := hindexed
  handled_lt := by
    rw [hhandled, hnext]
    exact hs.handled_lt
  matched_lt := by
    rw [hmatched, hnext]
    exact hs.matched_lt
  reached matched hmem hid := by
    rw [hmatched] at hmem
    obtain ⟨k, hreached, hstatus⟩ := hs.reached matched hmem hid
    refine ⟨k, ⟨hreached.bound, ?_, ?_, ?_, ?_⟩, ?_⟩
    · rw [hexecutions]
      exact hreached.runs
    · unfold AutomationState.completedActions
      rw [hhandled]
      exact hreached.completed
    · rw [hhandled]
      exact hreached.succeeded
    · rw [hhandled]
      exact hreached.handled
    · rw [hexecutions]
      exact hstatus
  matched := by
    rw [hexecutions, hmatched]
    exact hs.matched

theorem progress_handleRule {faults : RuleFaults} {rule : AutomationRuleRecord} (hs : Progress executionId s) :
    Progress executionId (engine.handleRule event faults rule s).2 := by
  have hindexed := @indexed_handleRule engine event _ rule faults hs.indexed
  have h := handledRule engine event faults rule s
  generalize engine.handleRule event faults rule s = answer at h hindexed
  cases h with
  | unmatched | failed | duplicate => exact hs
  | lost => exact progress_withExecution hs rule
  | queued => exact progress_congr (@progress_withExecution event _ _ hs rule) hindexed rfl rfl rfl rfl

theorem progress_runExecution {id : Id} {actor : Option AutomationActor}
    {outcomes : ℕ → ActionOutcome} (hs : Progress executionId s)
    (hfinds : s.FindsMatched executionId (.runExecution id actor outcomes)) :
    Progress executionId (engine.runExecution id actor outcomes s).2 := by
  have hindexed := @indexed_step engine _ hs.indexed (.runExecution id actor outcomes)
  have helsewhere := elsewhere_runExecution engine id actor outcomes s
  cases hexecution : s.store.getExecution id with
  | none =>
      have hsame : (engine.runExecution id actor outcomes s).2 = s := by
        unfold AutomationEngine.runExecution
        rw [hexecution]
      rw [hsame]
      exact hs
  | some execution =>
      have hid : execution.id = id := Table.key_of_lookup hexecution
      have hmem := Table.mem_of_lookup hexecution
      refine ⟨hindexed, ?_, ?_, ?_, ?_⟩
      · intro run hrun
        rw [helsewhere.nextExecution]
        by_cases hsame : run.executionId = id
        · rw [hsame, ← hid]
          exact hs.indexed.execution_lt execution hmem
        · exact hs.handled_lt run ((helsewhere.mem_handled hsame).mp hrun)
      · rw [helsewhere.matched, helsewhere.nextExecution]
        exact hs.matched_lt
      · rw [helsewhere.matched]
        intro matched hmatched hmid
        obtain ⟨k, hreached, hstatus⟩ := hs.reached matched hmatched hmid
        by_cases hsame : id = executionId
        · subst hsame
          exact reached_runExecution hreached hstatus fun found hfound hopen rule hrule =>
            hfinds rfl found hfound hopen rule hrule matched hmatched hmid
        · have hne : executionId ≠ id := fun h => hsame h.symm
          refine ⟨k, hreached.elsewhere hne helsewhere, fun other hother hotherid => ?_⟩
          exact hstatus other (helsewhere.executions other hother (hotherid ▸ hne)) hotherid
      · intro other hother
        rw [helsewhere.matched]
        by_cases hsame : other.id = id
        · rw [hsame, ← hid]
          exact hs.matched execution hmem
        · exact hs.matched other (helsewhere.executions other hother hsame)

theorem progress_step {input : AutomationInput} (hs : Progress executionId s)
    (hfinds : s.FindsMatched executionId input) : Progress executionId (s.step engine input) := by
  have hindexed := @indexed_step engine _ hs.indexed input
  cases input with
  | handleEvent event faults => exact handleRules_keeps (fun _ _ _ hs => progress_handleRule hs) hs
  | runExecution id actor outcomes => exact progress_runExecution hs hfinds
  | createRule | updateRule | setRuleEnabled | wait => exact progress_congr hs hindexed rfl rfl rfl rfl

theorem progress_of_meets (engine : AutomationEngine) {inputs : List AutomationInput}
    (hfinds : Machine.Meets (AutomationState.step engine) (AutomationState.FindsMatched executionId) {} inputs) :
    Progress executionId (Machine.run (AutomationState.step engine) {} inputs) :=
  Machine.invariant_of_meets (I := Progress executionId) (fun _ _ => progress_step)
    ⟨@indexed_of_reachable engine _ ⟨[], rfl⟩, nofun, nofun, nofun, nofun⟩ hfinds

/-- Where no attempt of an execution finds an action that has not succeeded yet moved or changed since the rule
matched, and the execution has succeeded, it has run the actions that matched, each of them successfully once,
and no other. -/
theorem actions_exactly_once (engine : AutomationEngine) (inputs : List AutomationInput) (executionId : Id)
    (hfinds : Machine.Meets (AutomationState.step engine) (AutomationState.FindsMatched executionId) {} inputs)
    (execution : AutomationExecutionRecord)
    (hexecution : execution ∈ (Machine.run (AutomationState.step engine) {} inputs).store.executions)
    (hid : execution.id = executionId) (hsucceeded : execution.status = .succeeded) :
    (Machine.run (AutomationState.step engine) {} inputs).RanMatched executionId := by
  have hprogress := progress_of_meets engine hfinds
  obtain ⟨matched, hmatched, hmid⟩ := hprogress.matched execution hexecution
  rw [hid] at hmid
  obtain ⟨k, hreached, hstatus⟩ := hprogress.reached matched hmatched hmid
  refine ⟨matched, hmatched, hmid, ?_, ?_⟩
  · rw [hreached.completed, hstatus execution hexecution hid hsucceeded, List.take_length]
  · exact fun run hrun hsame => List.mem_of_getElem? (hreached.handled run hrun hsame)

end Runs

/-! A rule that sends an email and writes to the audit log; at the first attempt the log fails. -/

def permissive (type permission : String) : RegisteredAction where
  type
  requiredPermission := permission
  destructive := false
  parse := .ok

def mailingEngine : AutomationEngine where
  registries :=
    { triggers := ["order.created"]
      operators := []
      actions := [permissive "sendEmail" "notifications:write", permissive "createAuditLog" "audit:write",
        permissive "webhook" "integrations:write"] }
  queuesAnalysis := true
  sanitizeErrorMessage := id

def mailAndLog : List AutomationAction := [{ type := "sendEmail" }, { type := "createAuditLog" }]

/-- The rule matches, and its first attempt fails after the email. -/
def mailSent : List AutomationInput :=
  [.createRule { enabled := true, trigger := "order.created", actions := mailAndLog },
    .handleEvent orderCreated fun _ => {},
    .runExecution 0 none fun index => if index = 1 then .failed false "unavailable" else .succeeded]

def secondAttempt : AutomationInput := .runExecution 0 none fun _ => .succeeded

/-- Actions without configuration are what their types are. -/
theorem actions_of_types {actions : List AutomationAction} (h : ∀ action ∈ actions, action.config.isEmpty) :
    actions = (actions.map AutomationAction.type).map fun type => { type } := by
  induction actions with
  | nil => rfl
  | cons action actions ih =>
      obtain ⟨type, config⟩ := action
      have hconfig : config = [] := List.isEmpty_iff.mp (h ⟨type, config⟩ List.mem_cons_self)
      rw [List.map_cons, List.map_cons, ← ih fun other hother => h other (List.mem_cons_of_mem _ hother), hconfig]

theorem findsMatched_secondAttempt : Machine.Meets (AutomationState.step mailingEngine)
    (AutomationState.FindsMatched 0) {} (mailSent ++ [secondAttempt]) := by
  have hfinds (s : AutomationState) (outcomes : ℕ → ActionOutcome)
      (hrules : ∀ rule ∈ s.store.rules, (∀ action ∈ rule.actions, action.config.isEmpty) ∧
        rule.actions.map AutomationAction.type = ["sendEmail", "createAuditLog"])
      (hmatched : ∀ matched ∈ s.matched, (∀ action ∈ matched.rule.actions, action.config.isEmpty) ∧
        matched.rule.actions.map AutomationAction.type = ["sendEmail", "createAuditLog"]) :
      s.FindsMatched 0 (.runExecution 0 none outcomes) := by
    intro _ execution _ _ rule hrule matched hmem _ index _
    obtain ⟨hplain, htypes⟩ := hrules rule (Table.mem_of_lookup hrule)
    obtain ⟨hplain', htypes'⟩ := hmatched matched hmem
    rw [actions_of_types hplain, actions_of_types hplain', htypes, htypes']
  exact ⟨trivial, trivial, hfinds _ _ (by decide) (by decide),
    hfinds _ _ (by decide) (by decide), trivial⟩

/-- The second attempt goes on with the log. -/
theorem failed_action_retried :
    (Machine.run (AutomationState.step mailingEngine) {} (mailSent ++ [secondAttempt])).RanMatched 0 := by
  have hdone : ∃ execution ∈
      (Machine.run (AutomationState.step mailingEngine) {} (mailSent ++ [secondAttempt])).store.executions,
      execution.id = 0 ∧ execution.status = .succeeded := by
    decide
  obtain ⟨execution, hexecution, hid, hsucceeded⟩ := hdone
  exact actions_exactly_once mailingEngine _ 0 findsMatched_secondAttempt execution hexecution hid hsucceeded

/-- An action is put before the others between the attempts. -/
def emailShifted : AutomationState :=
  Machine.run (AutomationState.step mailingEngine) {}
    (mailSent ++ [.updateRule 0 { actions := some ({ type := "webhook" } :: mailAndLog) }, secondAttempt])

/-- The email is sent again. -/
theorem action_completed_twice :
    (∃ execution ∈ emailShifted.store.executions, execution.id = 0 ∧ execution.status = .succeeded) ∧
      ¬ emailShifted.RanMatched 0 := by
  refine ⟨by decide, ?_⟩
  rintro ⟨matched, hmatched, -, hcompleted, -⟩
  have htwo : ∀ matched ∈ emailShifted.matched, matched.rule.actions.length = 2 := by decide
  have hthree : (emailShifted.completedActions 0).length = 3 := by decide
  rw [hcompleted, htwo matched hmatched] at hthree
  cases hthree

end DealFlow360.Automation
