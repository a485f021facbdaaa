import DealFlow360.Automation.Registrations
import DealFlow360.Lib.Program

/-!
# Runnable rules

A rule that is accepted can be run: no condition meets an operator that is
unknown, no action is unknown, and none is stopped for being destructive. And
what can be run is accepted, unless a condition uses an operator that a module
has registered: the check for the built-in operators is made of every operator.

`Runnable` says what a rule needs to be run, and the two directions are proved
apart: what an accepted rule can still fail with is only what was not checked
of it, a permission or the handler's own work (`runActions_of_runnable`); and a
rule that needs nothing missing is refused only by the check that lists the
built-in operators.

- `accepted_iff_runnable`: accepting and being runnable agree on a rule if and
  only if the rule is not runnable or all its operators are built in;
- `moduleOperator_refused`: an operator registered by a module.

The schema of `callOdoo` is the one handler followed through both, because it
checks twice.
-/

namespace DealFlow360.Automation

open Program

/-! ## What a rule needs -/

/-- The operator is registered, and there is a value where it takes one. -/
structure RunnableCondition (registries : AutomationRegistries) (condition : AutomationCondition) : Prop where
  operator : (registries.operators.lookup condition.operator).isSome = true
  value : condition.operator ≠ "exists" → condition.value.isSome = true
  array : condition.operator = "in" → validateCondition.isArray condition.value = true

/-- The action is registered, its schema accepts the configuration, writes to Odoo are confirmed, and whoever sets it
up has the permission. -/
def RunnableAction (registries : AutomationRegistries) (actor : Option AutomationActor) (action : AutomationAction) :
    Prop :=
  ∃ registered, registries.action action.type = some registered ∧ (∃ parsed, registered.parse action = .ok parsed) ∧
    (isOdooWriteAction action = true → isConfirmed action = true) ∧
      ∀ user, actor = some user → hasPermission user registered.requiredPermission = true

def isDestructive (registries : AutomationRegistries) (action : AutomationAction) : Bool :=
  (registries.action action.type).any (·.destructive) || isOdooWriteAction action

structure Runnable (registries : AutomationRegistries) (actor : Option AutomationActor) (input : RuleValidationInput) :
    Prop where
  trigger : input.trigger ∈ registries.triggers
  conditions : ∀ condition ∈ input.conditions, RunnableCondition registries condition
  nonempty : input.actions ≠ []
  actions : ∀ action ∈ input.actions, RunnableAction registries actor action
  destructive : ∀ action ∈ input.actions, isDestructive registries action = true → input.allowDestructive = true

/-! ## Acceptance -/

section Acceptance

variable {registries : AutomationRegistries} {actor : Option AutomationActor}

theorem validateCondition_iff (index : ℕ) (condition : AutomationCondition) :
    validateCondition registries index condition = .ok () ↔
      RunnableCondition registries condition ∧ condition.operator ∈ builtinOperators := by
  unfold validateCondition
  split
  · rename_i hunknown
    refine iff_of_false nofun fun h => ?_
    rw [Option.isNone_iff_eq_none] at hunknown
    have hoperator := h.1.operator
    rw [hunknown] at hoperator
    cases hoperator
  · rename_i hknown
    split
    · rename_i hforeign
      exact iff_of_false nofun fun h => hforeign h.2
    · rename_i hbuiltin
      split
      · rename_i hmissing
        refine iff_of_false nofun fun h => ?_
        have hvalue := h.1.value hmissing.1
        rw [Option.isNone_iff_eq_none.mp hmissing.2] at hvalue
        cases hvalue
      · rename_i hgiven
        split
        · rename_i hscalar
          refine iff_of_false nofun fun h => ?_
          have harray := h.1.array hscalar.1
          rw [harray] at hscalar
          cases hscalar.2
        · rename_i harray
          refine iff_of_true rfl ⟨⟨?_, fun hoperator => ?_, fun hoperator => ?_⟩, not_not.mp hbuiltin⟩
          · rwa [Bool.not_eq_true, Option.isNone_eq_false_iff] at hknown
          · cases hvalue : condition.value with
            | none => exact absurd ⟨hoperator, by rw [hvalue]; rfl⟩ hgiven
            | some value => rfl
          · cases hvalue : validateCondition.isArray condition.value with
            | false => exact absurd ⟨hoperator, by rw [hvalue]; rfl⟩ harray
            | true => rfl

theorem validateConditions_iff (conditions : List AutomationCondition) :
    validateConditions registries conditions = .ok () ↔
      ∀ condition ∈ conditions, RunnableCondition registries condition ∧ condition.operator ∈ builtinOperators := by
  unfold validateConditions
  generalize 0 = first
  induction conditions generalizing first with
  | nil => exact iff_of_true rfl (List.forall_mem_nil _)
  | cons condition conditions ih =>
      rw [List.zipIdx_cons, List.foldlM_cons, List.forall_mem_cons, ← ih (first + 1),
        ← validateCondition_iff first condition]
      rw [except_bind_eq_ok]
      exact ⟨fun ⟨(), hthis, hrest⟩ => ⟨hthis, hrest⟩, fun ⟨hthis, hrest⟩ => ⟨(), hthis, hrest⟩⟩

theorem validateAction_iff (index : ℕ) (action : AutomationAction) (destructive : Bool) :
    validateAction registries actor index action = .ok destructive ↔
      RunnableAction registries actor action ∧ destructive = isDestructive registries action := by
  unfold validateAction RunnableAction isDestructive
  cases registries.action action.type with
  | none => exact iff_of_false nofun fun ⟨⟨registered, hsome, _⟩, _⟩ => nomatch hsome
  | some registered =>
      simp only [Option.some.injEq, exists_eq_left', Option.any_some]
      cases hparse : registered.parse action with
      | error issues => exact iff_of_false nofun fun ⟨⟨⟨_, hparsed⟩, _⟩, _⟩ => nomatch hparsed
      | ok parsed =>
          dsimp only
          split
          · rename_i hwrite
            rw [Bool.and_eq_true, Bool.not_eq_true'] at hwrite
            refine iff_of_false nofun fun ⟨⟨_, hconfirmed, _⟩, _⟩ => ?_
            rw [hwrite.2] at hconfirmed
            cases hconfirmed hwrite.1
          · rename_i hwrite
            have hconfirmed (hodoo : isOdooWriteAction action = true) : isConfirmed action = true := by
              rwa [hodoo, Bool.true_and, Bool.not_eq_true', Bool.not_eq_false] at hwrite
            cases actor with
            | none =>
                rw [Option.any_none, if_neg Bool.false_ne_true, Except.ok.injEq, eq_comm]
                exact ⟨fun h => ⟨⟨⟨parsed, rfl⟩, hconfirmed, nofun⟩, h⟩, fun h => h.2⟩
            | some user =>
                rw [Option.any_some]
                cases hpermitted : hasPermission user registered.requiredPermission with
                | false =>
                    rw [if_pos (by decide)]
                    refine iff_of_false nofun fun ⟨⟨_, _, hall⟩, _⟩ => ?_
                    have hthis := hall user rfl
                    rw [hpermitted] at hthis
                    cases hthis
                | true =>
                    rw [if_neg (by decide), Except.ok.injEq, eq_comm]
                    refine ⟨fun h => ⟨⟨⟨parsed, rfl⟩, hconfirmed, fun other hother => ?_⟩, h⟩, fun h => h.2⟩
                    cases hother
                    exact hpermitted

theorem validateActions_iff (actions : List AutomationAction) (destructive : Bool) :
    validateActions registries actor actions = .ok destructive ↔
      (∀ action ∈ actions, RunnableAction registries actor action) ∧
        destructive = actions.any (isDestructive registries) := by
  unfold validateActions
  have hfold (first : ℕ) (before : Bool) :
      (actions.zipIdx first).foldlM (fun destructive entry =>
          (validateAction registries actor entry.2 entry.1).map (destructive || ·)) before = .ok destructive ↔
        (∀ action ∈ actions, RunnableAction registries actor action) ∧
          destructive = (before || actions.any (isDestructive registries)) := by
    induction actions generalizing first before with
    | nil =>
        rw [List.any_nil, Bool.or_false]
        exact ⟨fun h => ⟨List.forall_mem_nil _, (Except.ok.inj h).symm⟩, fun h => congrArg Except.ok h.2.symm⟩
    | cons action actions ih =>
        rw [List.zipIdx_cons, List.foldlM_cons, except_bind_eq_ok, List.forall_mem_cons, List.any_cons, ← Bool.or_assoc]
        constructor
        · rintro ⟨after, hstep, hrest⟩
          dsimp only at hstep
          cases hvalid : validateAction registries actor first action with
          | error error =>
              rw [hvalid] at hstep
              cases hstep
          | ok this =>
              rw [hvalid] at hstep
              obtain rfl := Except.ok.inj hstep
              obtain ⟨hrunnable, rfl⟩ := (validateAction_iff first action this).mp hvalid
              obtain ⟨hrunnables, hdestructive⟩ := (ih _ _).mp hrest
              exact ⟨⟨hrunnable, hrunnables⟩, hdestructive⟩
        · rintro ⟨⟨hrunnable, hrunnables⟩, hdestructive⟩
          have hvalid := (validateAction_iff first action _).mpr ⟨hrunnable, rfl⟩
          refine ⟨before || isDestructive registries action, ?_, (ih _ _).mpr ⟨hrunnables, hdestructive⟩⟩
          dsimp only
          rw [hvalid]
          rfl
  exact (hfold 0 false).trans (by rw [Bool.false_or])

theorem requireAction_iff (actions : List AutomationAction) :
    (if actions.isEmpty then
        (.error (.validation "Automation rules require at least one action"
          [{ path := "actions", message := "At least one action is required" }]) : Except AutomationError Unit)
      else .ok ()) = .ok () ↔ actions ≠ [] := by
  cases actions with
  | nil => exact iff_of_false nofun fun h => h rfl
  | cons action actions => exact iff_of_true rfl (List.cons_ne_nil _ _)

/-- A rule is accepted if and only if it is runnable and all its operators are built in. -/
theorem validateAutomationRule_iff (input : RuleValidationInput) :
    validateAutomationRule registries actor input = .ok () ↔
      Runnable registries actor input ∧ ∀ condition ∈ input.conditions, condition.operator ∈ builtinOperators := by
  constructor
  · intro h
    unfold validateAutomationRule at h
    dsimp only at h
    split at h
    · cases h
    · rename_i htrigger
      -- the first check of the actions is made again after the conditions
      have hagain {c : Bool} {check rest : Except AutomationError Unit}
          (h : (if c then check >>= fun _ => rest else rest) = .ok ()) : rest = .ok () := by
        split at h
        · obtain ⟨_, -, hrest⟩ := except_bind_eq_ok.mp h
          exact hrest
        · exact h
      obtain ⟨_, hconditions, h⟩ := except_bind_eq_ok.mp (hagain h)
      obtain ⟨_, hnonempty, h⟩ := except_bind_eq_ok.mp h
      obtain ⟨destructive, hactions, h⟩ := except_bind_eq_ok.mp h
      obtain ⟨hrunnable, rfl⟩ := (validateActions_iff input.actions destructive).mp hactions
      rw [validateConditions_iff] at hconditions
      refine ⟨⟨not_not.mp htrigger, fun condition hmem => (hconditions condition hmem).1,
        (requireAction_iff input.actions).mp hnonempty, hrunnable, fun action hmem hdestructive => ?_⟩,
        fun condition hmem => (hconditions condition hmem).2⟩
      split at h
      · cases h
      · rename_i hallowed
        rw [List.any_eq_true.mpr ⟨action, hmem, hdestructive⟩, Bool.true_and, Bool.not_eq_true', Bool.not_eq_false]
          at hallowed
        exact hallowed
  · rintro ⟨hrunnable, hbuiltin⟩
    have hconditions := (validateConditions_iff input.conditions).mpr fun condition hmem =>
      ⟨hrunnable.conditions condition hmem, hbuiltin condition hmem⟩
    have hactions := (validateActions_iff input.actions _).mpr ⟨hrunnable.actions, rfl⟩
    have hallowed : ¬ (input.actions.any (isDestructive registries) && !input.allowDestructive) = true := by
      rw [Bool.and_eq_true, List.any_eq_true]
      rintro ⟨⟨action, hmem, hdestructive⟩, hnot⟩
      rw [hrunnable.destructive action hmem hdestructive] at hnot
      cases hnot
    unfold validateAutomationRule
    dsimp only
    rw [if_neg (not_not.mpr hrunnable.trigger), (requireAction_iff input.actions).mpr hrunnable.nonempty, hconditions,
      hactions]
    split <;> exact if_neg hallowed

end Acceptance

/-! ## Running -/

/-- What an execution can fail with: a missing permission, or what a handler throws of its own. -/
def FailsOtherwise (rest : ℕ → ActionOutcome) (error : AutomationError) : Prop :=
  (∃ message permissions type, error = .authorization message permissions type) ∨
    ∃ message, error = .thrown message ∧ ((∃ index handed, rest index = .failed handed message) ∨
      message ∈ ["Odoo is not enabled", "The event actor is not allowed to call this Odoo method"])

section Running

variable {engine : AutomationEngine} {registries : AutomationRegistries} {rule : AutomationRuleRecord}
  {user actor : Option AutomationActor}

theorem matchesConditions_of_registered (payload : Payload) {conditions : List AutomationCondition}
    (h : ∀ condition ∈ conditions, (registries.operators.lookup condition.operator).isSome = true) :
    ∃ holds, matchesConditions registries payload conditions = .ok holds := by
  induction conditions with
  | nil => exact ⟨true, rfl⟩
  | cons condition conditions ih =>
      obtain ⟨evaluator, hevaluator⟩ := Option.isSome_iff_exists.mp (h condition List.mem_cons_self)
      unfold matchesConditions
      rw [hevaluator]
      dsimp only
      split
      · exact ih fun other hother => h other (List.mem_cons_of_mem _ hother)
      · exact ⟨false, rfl⟩

theorem extended_callOdoo (h : registries.Extended) :
    ∃ issues, registries.action "callOdoo" = some (callOdooAction issues) := by
  unfold AutomationRegistries.action
  induction h with
  | builtin operators schemas issues => exact ⟨issues, rfl⟩
  | operator _ name evaluator hregister ih =>
      unfold AutomationRegistries.registerOperator at hregister
      split at hregister
      · cases hregister
      · split at hregister
        · cases hregister
        · cases hregister
          exact ih
  | trigger _ issues name description hregister ih =>
      unfold AutomationRegistries.registerTrigger at hregister
      dsimp only at hregister
      split at hregister
      · cases hregister
      · split at hregister
        · cases hregister
        · split at hregister
          · cases hregister
          · cases hregister
            exact ih
  | action _ issues action description hregister ih =>
      unfold AutomationRegistries.registerAction at hregister
      dsimp only at hregister
      split at hregister
      · cases hregister
      · split at hregister
        · cases hregister
        · split at hregister
          · cases hregister
          · split at hregister
            · cases hregister
            · cases hregister
              obtain ⟨issues, hfound⟩ := ih
              refine ⟨issues, ?_⟩
              unfold Table.lookup at hfound ⊢
              rw [List.find?_append, hfound]
              rfl

theorem lookup_method (input : CallOdooInput) : input.action.config.lookup "method" = some (.str input.method) := by
  unfold CallOdooInput.action
  rfl

theorem lookup_confirmed (input : CallOdooInput) :
    input.action.config.lookup "confirmed" = input.confirmed.map .bool := by
  unfold CallOdooInput.action
  cases input.params <;> cases input.confirmed <;> rfl

/-- What the schema of `callOdoo` answers says the same of writing and of the confirmation as what it was given. -/
theorem callOdooInput_agrees {action : AutomationAction} {input : CallOdooInput}
    (h : callOdooInput action = some input) :
    action.type = "callOdoo" ∧
      (odooMethod input.action ∈ odooWriteMethods → isOdooWriteAction action = true) ∧
        isConfirmed input.action = isConfirmed action := by
  unfold callOdooInput at h
  simp only [Option.bind_eq_bind, Option.bind_eq_some_iff, Option.some.injEq] at h
  obtain ⟨_, htype, capability, -, method, hmethod, params, -, confirmed, hconfirmed, rfl⟩ := h
  have htype : action.type = "callOdoo" := by
    by_contra hne
    rw [guard, if_neg hne] at htype
    cases htype
  refine ⟨htype, fun hwrites => ?_, ?_⟩
  · unfold odooMethod at hwrites
    rw [lookup_method] at hwrites
    dsimp only at hwrites
    unfold isOdooWriteAction
    rw [decide_eq_true htype, Bool.true_and]
    unfold methodField at hmethod
    split at hmethod
    · cases hmethod
      exact absurd hwrites (by decide)
    · rename_i given hgiven
      rw [hgiven]
      dsimp only
      split at hmethod
      · cases hmethod
        exact decide_eq_true hwrites
      · cases hmethod
    · cases hmethod
  · unfold isConfirmed
    rw [lookup_confirmed]
    unfold confirmedField at hconfirmed
    split at hconfirmed
    · rename_i hnone
      cases hconfirmed
      rw [hnone]
      rfl
    · rename_i given hgiven
      cases hconfirmed
      rw [hgiven]
      rfl
    · cases hconfirmed

/-- An action of an accepted rule is stopped before its handler is called only for want of a permission. -/
theorem checkAction_of_runnable {action : AutomationAction} (h : Runnable engine.registries user rule.validationInput)
    (hmem : action ∈ rule.actions) (actor : Option AutomationActor) (index : ℕ) :
    (∃ input, engine.checkAction rule actor action index = .ok input) ∨
      ∃ message permissions, engine.checkAction rule actor action index =
        .error (.authorization message permissions action.type) := by
  obtain ⟨registered, hregistered, ⟨input, hparse⟩, -⟩ := h.actions action hmem
  have hallowed : ¬ (registered.destructive && !rule.allowDestructive) = true := by
    rw [Bool.and_eq_true, Bool.not_eq_true']
    rintro ⟨hdestructive, hnot⟩
    have hthis : isDestructive engine.registries action = true := by
      unfold isDestructive
      rw [hregistered, Option.any_some, hdestructive, Bool.true_or]
    have hallow : rule.allowDestructive = true := h.destructive action hmem hthis
    rw [hallow] at hnot
    cases hnot
  unfold AutomationEngine.checkAction
  rw [hregistered]
  dsimp only
  rw [if_neg hallowed, hparse]
  split
  · exact .inr ⟨_, _, rfl⟩
  · exact .inl ⟨input, rfl⟩

/-- The handler of `callOdoo` lets an action of an accepted rule through, if the actor has the permission. -/
theorem callOdooPolicy_of_runnable {action : AutomationAction} {input : CallOdooInput}
    (h : Runnable engine.registries user rule.validationInput) (hmem : action ∈ rule.actions)
    (hinput : callOdooInput action = some input) (actor : Option AutomationActor) :
    callOdooPolicy rule actor input.action = .ok () ∨ ∃ permissions, callOdooPolicy rule actor input.action =
      .error (.authorization "The event actor is not allowed to call this Odoo method" permissions "") := by
  obtain ⟨-, hwrites, hconfirmed⟩ := callOdooInput_agrees hinput
  obtain ⟨_, _, _, hodoo, _⟩ := h.actions action hmem
  have hpermitted (permission : String) (actor : AutomationActor) (answer : Except AutomationError Unit)
      (hanswer : answer = if permission ∈ actor.permissions then .ok () else
        .error (.authorization "The event actor is not allowed to call this Odoo method" [permission] "")) :
      answer = .ok () ∨ ∃ permissions, answer =
        .error (.authorization "The event actor is not allowed to call this Odoo method" permissions "") := by
    rw [hanswer]
    split
    · exact .inl rfl
    · exact .inr ⟨_, rfl⟩
  unfold callOdooPolicy
  dsimp only
  cases hwriting : decide (odooMethod input.action ∈ odooWriteMethods) with
  | false =>
      rw [Bool.false_and, if_neg Bool.false_ne_true]
      cases actor with
      | none => exact .inl rfl
      | some actor => exact hpermitted "odoo.read" actor _ rfl
  | true =>
      have hwrite := hwrites (of_decide_eq_true hwriting)
      have hallow : rule.allowDestructive = true := by
        refine h.destructive action hmem ?_
        unfold isDestructive
        rw [hwrite, Bool.or_true]
      have hconfirmed : isConfirmed input.action = true := hconfirmed.trans (hodoo hwrite)
      rw [hallow, if_neg (by decide)]
      cases actor with
      | none =>
          dsimp only
          rw [hconfirmed, if_neg (by decide)]
          exact .inl rfl
      | some actor => exact hpermitted "odoo.write" actor _ rfl

/-- What a checked action is given to its handler as: the answer of its schema. -/
theorem parse_of_checkAction {action input : AutomationAction} {index : ℕ}
    (h : engine.checkAction rule actor action index = .ok input) :
    ∃ registered, engine.registries.action action.type = some registered ∧ registered.parse action = .ok input := by
  unfold AutomationEngine.checkAction at h
  split at h
  · cases h
  · rename_i registered hregistered
    split at h
    · cases h
    · split at h
      · cases h
      · split at h
        · cases h
        · rename_i hparse
          cases h
          exact ⟨registered, hregistered, hparse⟩

/-- What the handler of an action of an accepted rule fails with. -/
theorem handlerOutcome_of_runnable {action input : AutomationAction} {index : ℕ} {odooEnabled handed : Bool}
    {rest : ℕ → ActionOutcome} {message : String} (hextended : engine.registries.Extended)
    (h : Runnable engine.registries user rule.validationInput) (hmem : action ∈ rule.actions)
    (hchecked : engine.checkAction rule actor action index = .ok input)
    (hfailed : handlerOutcome odooEnabled rule actor (rest index) action.type input = .failed handed message) :
    FailsOtherwise rest (.thrown message) := by
  have hown (hfailed : rest index = .failed handed message) : FailsOtherwise rest (.thrown message) :=
    .inr ⟨message, rfl, .inl ⟨index, handed, hfailed⟩⟩
  unfold handlerOutcome at hfailed
  split at hfailed
  · rename_i htype
    split at hfailed
    · cases hfailed
      exact .inr ⟨_, rfl, .inr List.mem_cons_self⟩
    · obtain ⟨issues, hcallOdoo⟩ := extended_callOdoo hextended
      obtain ⟨registered, hregistered, hparse⟩ := parse_of_checkAction hchecked
      rw [htype, hcallOdoo, Option.some.injEq] at hregistered
      subst hregistered
      unfold callOdooAction at hparse
      dsimp only at hparse
      split at hparse
      · rename_i given hgiven
        cases hparse
        rcases callOdooPolicy_of_runnable h hmem hgiven actor with hpasses | ⟨permissions, hrefuses⟩
        · rw [hpasses] at hfailed
          exact hown hfailed
        · rw [hrefuses] at hfailed
          cases hfailed
          exact .inr ⟨_, rfl, .inr (List.mem_cons_of_mem _ List.mem_cons_self)⟩
      · cases hparse
  · exact hown hfailed

/-- The actions of an accepted rule, from an index on, fail otherwise than for what was checked of the rule. -/
theorem runActions_of_runnable {odooEnabled : Bool} {rest : ℕ → ActionOutcome} {execution : AutomationExecutionRecord}
    (hextended : engine.registries.Extended) (h : Runnable engine.registries user rule.validationInput)
    (actions : List AutomationAction) (index : ℕ)
    (hactions : ∀ offset, actions[offset]? = rule.actions[index + offset]?) (s : AutomationState)
    {error : AutomationError} (herror : (engine.runActions rule execution actor
      (engine.handlerOutcomes odooEnabled rule actor rest) actions index s).1 = some error) :
    FailsOtherwise rest error := by
  induction actions generalizing index s with
  | nil => cases herror
  | cons action actions ih =>
      have haction : rule.actions[index]? = some action := (hactions 0).symm
      have hrest : ∀ offset, actions[offset]? = rule.actions[index + 1 + offset]? := by
        intro offset
        rw [Nat.add_assoc, Nat.add_comm 1, ← hactions (offset + 1)]
        rfl
      have hmem : action ∈ rule.actions := List.mem_of_getElem? haction
      unfold AutomationEngine.runActions at herror
      split at herror
      · exact ih (index + 1) hrest s herror
      · unfold AutomationEngine.runAction at herror
        rcases checkAction_of_runnable h hmem actor index with ⟨input, hchecked⟩ | ⟨message, permissions, hrefused⟩
        · have houtcome : engine.handlerOutcomes odooEnabled rule actor rest index =
              handlerOutcome odooEnabled rule actor (rest index) action.type input := by
            unfold AutomationEngine.handlerOutcomes
            rw [haction]
            dsimp only
            rw [hchecked]
          rw [hchecked, houtcome] at herror
          dsimp only at herror
          cases hends : handlerOutcome odooEnabled rule actor (rest index) action.type input with
          | succeeded =>
              rw [hends] at herror
              exact ih (index + 1) hrest _ herror
          | failed handed message =>
              rw [hends] at herror
              obtain rfl := Option.some.inj herror
              exact handlerOutcome_of_runnable hextended h hmem hchecked hends
        · rw [hrefused] at herror
          obtain rfl := Option.some.inj herror
          exact .inl ⟨message, permissions, action.type, rfl⟩

theorem runExecution_of_runnable {odooEnabled : Bool} {rest : ℕ → ActionOutcome} {execution : AutomationExecutionRecord}
    {executionId : Id} {s : AutomationState} (hextended : engine.registries.Extended)
    (h : Runnable engine.registries user rule.validationInput)
    (hexecution : s.store.getExecution executionId = some execution)
    (hrule : s.store.getRule execution.ruleId = some rule) {error : AutomationError}
    (herror : (engine.runExecution executionId actor
      (engine.handlerOutcomes odooEnabled rule actor rest) s).1 = some error) : FailsOtherwise rest error := by
  unfold AutomationEngine.runExecution at herror
  rw [hexecution] at herror
  dsimp only at herror
  split at herror
  · cases herror
  · rw [hrule] at herror
    dsimp only at herror
    split at herror
    · cases herror
    · rename_i failure s' hfailure
      obtain rfl := Option.some.inj herror
      have hfails := congrArg Prod.fst hfailure
      exact runActions_of_runnable hextended h rule.actions 0 (fun offset => by rw [Nat.zero_add]) _ hfails

/-- A rule is accepted exactly when it is runnable, if and only if it is not runnable or all its operators are built
in. A rule that is accepted has conditions that can be evaluated and actions that are not stopped for what was
checked of the rule. -/
theorem accepted_iff_runnable (h : registries.Extended) (user : Option AutomationActor) (input : RuleValidationInput) :
    ((validateAutomationRule registries user input = .ok () ↔ Runnable registries user input) ↔
      (Runnable registries user input → ∀ condition ∈ input.conditions, condition.operator ∈ builtinOperators)) ∧
    (validateAutomationRule registries user input = .ok () →
      ∀ (engine : AutomationEngine) (rule : AutomationRuleRecord),
      engine.registries = registries → rule.validationInput = input →
        (∀ payload, ∃ holds, matchesConditions engine.registries payload rule.conditions = .ok holds) ∧
        ∀ (s : AutomationState) (executionId : Id) (execution : AutomationExecutionRecord)
            (actor : Option AutomationActor) (odooEnabled : Bool) (rest : ℕ → ActionOutcome) (error : AutomationError),
          s.store.getExecution executionId = some execution → s.store.getRule execution.ruleId = some rule →
            (engine.runExecution executionId actor (engine.handlerOutcomes odooEnabled rule actor rest) s).1 =
              some error → FailsOtherwise rest error) := by
  constructor
  · rw [validateAutomationRule_iff]
    exact ⟨fun hexact hrunnable => (hexact.mpr hrunnable).2, fun hbuiltin =>
      ⟨fun haccepted => haccepted.1, fun hrunnable => ⟨hrunnable, hbuiltin hrunnable⟩⟩⟩
  · rintro haccepted engine rule rfl rfl
    obtain ⟨hrunnable, -⟩ := (validateAutomationRule_iff rule.validationInput).mp haccepted
    refine ⟨fun payload => ?_, ?_⟩
    · exact matchesConditions_of_registered payload fun condition hmem => (hrunnable.conditions condition hmem).operator
    · intro s executionId execution actor odooEnabled rest error hexecution hrule herror
      exact runExecution_of_runnable h hrunnable hexecution hrule herror

end Running

/-! ## Rules of given registries -/

def existsEvaluator : ConditionEvaluator := fun field _ =>
  match field with
  | none | some .null => false
  | some _ => true

def startsWith : ConditionEvaluator := fun field value =>
  match field, value with
  | some (.str text), some (.str start) => start.toList.isPrefixOf text.toList
  | _, _ => false

/-- The registries with an operator that a module has registered. -/
def salesRegistries : AutomationRegistries :=
  { triggers := builtinTriggers
    operators := [("exists", existsEvaluator), ("startsWith", startsWith)]
    actions := builtinActions (fun _ action => .ok action) fun _ => [] }

theorem salesRegistries_extended : salesRegistries.Extended := by
  refine .operator (.builtin [("exists", existsEvaluator)] (fun _ action => .ok action) fun _ => []) "startsWith"
    startsWith ?_
  have hname : isCamelCase "startsWith" = true := by decide
  unfold AutomationRegistries.registerOperator
  rw [hname]
  rfl

/-- A rule for new orders, which looks at the reference and reads from Odoo. -/
def orderRule (condition : AutomationCondition) : RuleValidationInput :=
  { trigger := "order.created"
    conditions := [condition]
    actions := [{ type := "callOdoo", config := [("capability", .str "orders")] }]
    allowDestructive := false
    source := .manual }

theorem orderRule_runnable {condition : AutomationCondition} (h : RunnableCondition salesRegistries condition) :
    Runnable salesRegistries none (orderRule condition) := by
  have htrigger : "order.created" ∈ builtinTriggers := by decide
  refine ⟨htrigger, List.forall_mem_singleton.mpr h, List.cons_ne_nil _ _, List.forall_mem_singleton.mpr ?_,
    List.forall_mem_singleton.mpr fun hdestructive => ?_⟩
  · refine ⟨callOdooAction fun _ => [], rfl, ?_, fun hwrite => ?_, nofun⟩
    · have hinput : (callOdooInput { type := "callOdoo", config := [("capability", .str "orders")] }).isSome =
        true := by
        decide
      obtain ⟨input, hinput⟩ := Option.isSome_iff_exists.mp hinput
      refine ⟨input.action, ?_⟩
      unfold callOdooAction
      dsimp only
      rw [hinput]
    · cases hwrite
  · cases hdestructive

/-- A rule with the operator of a module is runnable, and refused. -/
theorem moduleOperator_refused :
    salesRegistries.Extended ∧
      Runnable salesRegistries none
        (orderRule { field := "reference", operator := "startsWith", value := some (.str "SO") }) ∧
      validateAutomationRule salesRegistries none
        (orderRule { field := "reference", operator := "startsWith", value := some (.str "SO") }) ≠ .ok () := by
  refine ⟨salesRegistries_extended, orderRule_runnable ⟨rfl, fun _ => rfl, fun hin => ?_⟩, fun haccepted => ?_⟩
  · exact absurd hin (by decide)
  · have hbuiltin := ((validateAutomationRule_iff _).mp haccepted).2 _ List.mem_cons_self
    exact absurd hbuiltin (by decide)

/-- The same rule with a built-in operator is accepted, and its conditions can be evaluated. -/
theorem builtinOperator_accepted :
    validateAutomationRule salesRegistries none (orderRule { field := "reference", operator := "exists" }) = .ok () ∧
      ∀ payload, ∃ holds, matchesConditions salesRegistries payload [{ field := "reference", operator := "exists" }] =
        .ok holds := by
  have hrunnable : Runnable salesRegistries none (orderRule { field := "reference", operator := "exists" }) :=
    orderRule_runnable ⟨rfl, fun hother => absurd rfl hother, fun hin => absurd hin (by decide)⟩
  obtain ⟨hexact, hruns⟩ := accepted_iff_runnable salesRegistries_extended none
    (orderRule { field := "reference", operator := "exists" })
  have haccepted := (hexact.mpr fun _ => List.forall_mem_singleton.mpr (by decide)).mpr hrunnable
  obtain ⟨hconditions, -⟩ := hruns haccepted
    { registries := salesRegistries, queuesAnalysis := false, sanitizeErrorMessage := fun message => message }
    { id := 0, enabled := false, priority := 100, trigger := "order.created"
      conditions := [{ field := "reference", operator := "exists" }]
      actions := [{ type := "callOdoo", config := [("capability", .str "orders")] }]
      source := .manual, allowDestructive := false, validatedAt := none, createdAt := 0 } rfl rfl
  exact ⟨haccepted, hconditions⟩

end DealFlow360.Automation
