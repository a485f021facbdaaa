import DealFlow360.Automation.RuleService
import DealFlow360.Automation.ExactlyOnce

/-!
# The human gate

A rule that was generated has to be validated before it is enabled, and every
change takes the validation back. An attempt reads the rule without a look at
either, and a validation is written apart from what it has read. Where an
attempt finds the rule validated, and a validation what it has read, no action
of a content that nobody has checked is executed.

A call that validates or enables is followed through its stages: what it has
read, what it has accepted, what it will write. The invariant `Gate` says that
a stored mark stands for a content that some call has checked, and that what is
pending will be written onto what was read.

- `gate_check`, `gate_setRuleEnabled`, `gate_updateRule`: the steps that touch
  a mark or a content;
- `gate_congr`: every other step;
- `unchecked_never_runs`: in every interleaving whose attempts and validations
  meet the condition, no action of an unchecked generated content is executed.

`unchecked_content_runs` is an attempt that reads the rule after its content
was rewritten.
-/

namespace DealFlow360.Automation

/-! ## Contents -/

/-- The same rule with the same conditions, actions and policy, and no rewriting in between. -/
structure ReadRule.SameContent (read other : ReadRule) : Prop where
  id : read.rule.id = other.rule.id
  version : read.version = other.version
  conditions : read.rule.conditions = other.rule.conditions
  actions : read.rule.actions = other.rule.actions
  allowDestructive : read.rule.allowDestructive = other.rule.allowDestructive

theorem ReadRule.SameContent.refl (read : ReadRule) : read.SameContent read :=
  ⟨rfl, rfl, rfl, rfl, rfl⟩

theorem ReadRule.SameContent.trans {first second third : ReadRule} (h : first.SameContent second)
    (h' : second.SameContent third) : first.SameContent third where
  id := h.id.trans h'.id
  version := h.version.trans h'.version
  conditions := h.conditions.trans h'.conditions
  actions := h.actions.trans h'.actions
  allowDestructive := h.allowDestructive.trans h'.allowDestructive

namespace GateState

/-- Some call that validates or enables has read the content and accepted it. -/
def Checked (s : GateState) (read : ReadRule) : Prop := ∃ check ∈ s.checked, check.SameContent read

/-- Every action whose handler was called is of the content its attempt had read, and if the rule was generated
that content had been checked since it was last rewritten. -/
def Gated (s : GateState) : Prop :=
  ∀ run ∈ s.executed, run.action ∈ run.read.rule.actions ∧
    (run.read.rule.source = .ai → s.Checked run.read)

/-- An attempt finds the generated rule validated; a validation of a generated rule is written onto the content
that was read. -/
def GuardedStage (s : GateState) : Stage → Prop
  | .readingRule execution _ => ∀ rule, s.store.getRule execution.ruleId = some rule →
      rule.source = .ai → rule.validatedAt.isSome
  | .validating read | .enabling read => ∀ rule, s.store.getRule read.rule.id = some rule →
      rule.source = .ai → s.version read.rule.id = read.version
  | _ => True

def Guarded (s : GateState) : GateEvent → Prop
  | .step id _ => ∀ call, Table.lookup RuleCall.id id s.calls = some call → s.GuardedStage call.stage
  | _ => True

instance (s : GateState) : ∀ stage, Decidable (s.GuardedStage stage)
  | .readingRule execution _ => inferInstanceAs (Decidable (∀ rule ∈ s.store.getRule execution.ruleId,
      rule.source = .ai → rule.validatedAt.isSome))
  | .validating read | .enabling read => inferInstanceAs (Decidable (∀ rule ∈ s.store.getRule read.rule.id,
      rule.source = .ai → s.version read.rule.id = read.version))
  | .createRule .. | .updateRule .. | .updating .. | .disabling .. | .validateRule .. | .enableRule ..
  | .disableRule .. | .handleEvent .. | .handling .. | .runExecution .. | .starting .. | .attempting ..
  | .running .. | .failing .. | .returned | .threw .. => .isTrue trivial

instance (s : GateState) : ∀ event, Decidable (s.Guarded event)
  | .step id _ => inferInstanceAs (Decidable (∀ call ∈ Table.lookup RuleCall.id id s.calls,
      s.GuardedStage call.stage))
  | .call .. | .wait .. => .isTrue trivial

end GateState

/-! ## The store -/

/-- What was checked is known, and what is marked as validated was checked. -/
structure Gate (s : GateState) : Prop where
  distinct : (s.store.rules.map AutomationRuleRecord.id).Nodup
  rule_lt : ∀ rule ∈ s.store.rules, rule.id < s.store.nextRule
  contents : ∀ check ∈ s.checked, ∀ rule ∈ s.store.rules, rule.id = check.rule.id →
    s.version rule.id = check.version → check.SameContent (s.read rule)
  past : ∀ check ∈ s.checked, check.version ≤ s.version check.rule.id
  known : ∀ check ∈ s.checked, check.rule.id < s.store.nextRule
  validated : ∀ rule ∈ s.store.rules, rule.source = .ai → rule.validatedAt.isSome → s.Checked (s.read rule)

/-- What a call has read was checked. -/
def Pending (s : GateState) : Stage → Prop
  | .validating read | .enabling read => read ∈ s.checked
  | .starting _ read _ | .attempting _ read _ _ | .running _ read _ _ _ =>
      read.rule.source = .ai → s.Checked read
  | _ => True

section Store

variable {s s' : GateState}

/-- What says nothing of rules. -/
theorem gate_congr (hs : Gate s) (hrules : s'.store.rules = s.store.rules)
    (hnext : s'.store.nextRule = s.store.nextRule) (hrewritten : s'.rewritten = s.rewritten)
    (hchecked : s'.checked = s.checked) : Gate s' := by
  have hversion (id : Id) : s'.version id = s.version id := by
    unfold GateState.version
    rw [hrewritten]
  have hread (rule : AutomationRuleRecord) : s'.read rule = s.read rule := by
    unfold GateState.read
    rw [hversion]
  constructor
  · rw [hrules]
    exact hs.distinct
  · rw [hrules, hnext]
    exact hs.rule_lt
  · intro check hcheck rule hrule hid hsame
    rw [hchecked] at hcheck
    rw [hrules] at hrule
    rw [hread]
    rw [hversion] at hsame
    exact hs.contents check hcheck rule hrule hid hsame
  · intro check hcheck
    rw [hchecked] at hcheck
    rw [hversion]
    exact hs.past check hcheck
  · intro check hcheck
    rw [hchecked] at hcheck
    rw [hnext]
    exact hs.known check hcheck
  · intro rule hrule hai hsome
    rw [hrules] at hrule
    unfold GateState.Checked
    rw [hchecked, hread]
    exact hs.validated rule hrule hai hsome

theorem eq_of_sameId {rules : List AutomationRuleRecord} (hdistinct : (rules.map AutomationRuleRecord.id).Nodup)
    {rule other : AutomationRuleRecord} (hrule : rule ∈ rules) (hother : other ∈ rules)
    (hid : rule.id = other.id) : rule = other :=
  List.inj_on_of_nodup_map hdistinct hrule hother hid

/-- A call has read the stored rule and accepted it. -/
theorem gate_check (hs : Gate s) {rule : AutomationRuleRecord} (hrule : rule ∈ s.store.rules) :
    Gate { s with checked := s.checked ++ [s.read rule] } where
  distinct := hs.distinct
  rule_lt := hs.rule_lt
  contents check hcheck other hother hid hsame := by
    rcases List.mem_append.mp hcheck with hcheck | hcheck
    · exact hs.contents check hcheck other hother hid hsame
    · cases List.mem_singleton.mp hcheck
      rw [eq_of_sameId hs.distinct hother hrule hid]
      exact .refl _
  past check hcheck := by
    rcases List.mem_append.mp hcheck with hcheck | hcheck
    · exact hs.past check hcheck
    · cases List.mem_singleton.mp hcheck
      exact le_refl _
  known check hcheck := by
    rcases List.mem_append.mp hcheck with hcheck | hcheck
    · exact hs.known check hcheck
    · cases List.mem_singleton.mp hcheck
      exact hs.rule_lt rule hrule
  validated other hother hai hsome := by
    obtain ⟨check, hcheck, hsame⟩ := hs.validated other hother hai hsome
    exact ⟨check, List.mem_append_left _ hcheck, hsame⟩

/-- A flag or the validation is written, where the content was checked or is no longer marked. -/
theorem gate_setRuleEnabled (hs : Gate s) (id : Id) (enabled : Bool) (validatedAt : Option (Option Timestamp))
    (hmarks : ∀ time, validatedAt = some (some time) → ∀ rule ∈ s.store.rules, rule.id = id →
      rule.source = .ai → s.Checked (s.read rule)) :
    Gate (s.setStore (s.store.setRuleEnabled id enabled validatedAt)) := by
  have hold : ∀ rule ∈ (s.store.setRuleEnabled id enabled validatedAt).rules,
      ∃ before ∈ s.store.rules, rule.id = before.id ∧ rule.source = before.source ∧
        rule.conditions = before.conditions ∧ rule.actions = before.actions ∧
        rule.allowDestructive = before.allowDestructive ∧
        (rule.validatedAt = before.validatedAt ∨ before.id = id ∧ validatedAt = some rule.validatedAt) := by
    intro rule hrule
    obtain ⟨before, hbefore, rfl⟩ := List.mem_map.mp hrule
    by_cases hid : before.id = id
    · rw [if_pos hid]
      refine ⟨before, hbefore, rfl, rfl, rfl, rfl, rfl, ?_⟩
      cases validatedAt with
      | none => exact .inl rfl
      | some given => exact .inr ⟨hid, rfl⟩
    · rw [if_neg hid]
      exact ⟨before, hbefore, rfl, rfl, rfl, rfl, rfl, .inl rfl⟩
  have hids : ((s.store.setRuleEnabled id enabled validatedAt).rules.map AutomationRuleRecord.id) =
      s.store.rules.map AutomationRuleRecord.id := ids_modifyRule fun _ => rfl
  constructor
  · show ((s.store.setRuleEnabled id enabled validatedAt).rules.map AutomationRuleRecord.id).Nodup
    rw [hids]
    exact hs.distinct
  · intro rule hrule
    obtain ⟨before, hbefore, hid, -⟩ := hold rule hrule
    rw [hid]
    exact hs.rule_lt before hbefore
  · intro check hcheck rule hrule hid hversion
    obtain ⟨before, hbefore, hsame, -, hconditions, hactions, hallow, -⟩ := hold rule hrule
    rw [hsame] at hid hversion
    have hcontent := hs.contents check hcheck before hbefore hid hversion
    refine ⟨hid.symm.trans hsame.symm, ?_, hcontent.conditions.trans hconditions.symm,
      hcontent.actions.trans hactions.symm, hcontent.allowDestructive.trans hallow.symm⟩
    show check.version = s.version rule.id
    rw [hsame]
    exact hversion.symm
  · exact hs.past
  · exact hs.known
  · intro rule hrule hai hsome
    obtain ⟨before, hbefore, hsame, hsource, hconditions, hactions, hallow, hmark⟩ := hold rule hrule
    have hchecked : s.Checked (s.read before) := by
      rcases hmark with hmark | ⟨hid, hmark⟩
      · exact hs.validated before hbefore (hsource ▸ hai) (hmark ▸ hsome)
      · obtain ⟨time, htime⟩ := Option.isSome_iff_exists.mp hsome
        exact hmarks time (htime ▸ hmark) before hbefore hid (hsource ▸ hai)
    obtain ⟨check, hcheck, hcontent⟩ := hchecked
    refine ⟨check, hcheck, hcontent.trans ⟨hsame.symm, ?_, hconditions.symm, hactions.symm, hallow.symm⟩⟩
    show s.version before.id = s.version rule.id
    rw [hsame]

/-- A content is rewritten, and its mark taken back. -/
theorem gate_updateRule (hs : Gate s) (id : Id) (patch : UpdateAutomationRuleInput) :
    Gate { s.setStore (s.store.updateRule id patch) with rewritten := s.rewritten ++ [id] } := by
  have hversion (other : Id) : (s.rewritten ++ [id]).count other =
      s.version other + if id = other then 1 else 0 := by
    rw [List.count_append, List.count_singleton]
    unfold GateState.version
    simp only [beq_iff_eq]
  have hids : ((s.store.updateRule id patch).rules.map AutomationRuleRecord.id) =
      s.store.rules.map AutomationRuleRecord.id := ids_modifyRule fun _ => rfl
  constructor
  · show ((s.store.updateRule id patch).rules.map AutomationRuleRecord.id).Nodup
    rw [hids]
    exact hs.distinct
  · intro rule hrule
    obtain ⟨before, hbefore, rfl⟩ := List.mem_map.mp hrule
    split
    · exact hs.rule_lt before hbefore
    · exact hs.rule_lt before hbefore
  · intro check hcheck rule hrule hid hsame
    have hpast := hs.past check hcheck
    change (s.rewritten ++ [id]).count rule.id = check.version at hsame
    rw [hversion] at hsame
    obtain ⟨before, hbefore, rfl⟩ := List.mem_map.mp hrule
    by_cases hbeforeid : before.id = id
    · rw [if_pos hbeforeid] at hid hsame
      change before.id = check.rule.id at hid
      change s.version before.id + (if id = before.id then 1 else 0) = check.version at hsame
      rw [if_pos hbeforeid.symm] at hsame
      rw [hid] at hsame
      omega
    · rw [if_neg hbeforeid] at hid hsame ⊢
      rw [if_neg fun h => hbeforeid h.symm, Nat.add_zero] at hsame
      have hcontent := hs.contents check hcheck before hbefore hid hsame
      refine ⟨hcontent.id, ?_, hcontent.conditions, hcontent.actions, hcontent.allowDestructive⟩
      show check.version = (s.rewritten ++ [id]).count before.id
      rw [hversion, if_neg fun h => hbeforeid h.symm, Nat.add_zero]
      exact hsame.symm
  · intro check hcheck
    show check.version ≤ (s.rewritten ++ [id]).count check.rule.id
    rw [hversion]
    exact (hs.past check hcheck).trans (Nat.le_add_right _ _)
  · exact hs.known
  · intro rule hrule hai hsome
    obtain ⟨before, hbefore, rfl⟩ := List.mem_map.mp hrule
    by_cases hid : before.id = id
    · rw [if_pos hid] at hsome
      cases hsome
    · rw [if_neg hid] at hai hsome ⊢
      obtain ⟨check, hcheck, hcontent⟩ := hs.validated before hbefore hai hsome
      refine ⟨check, hcheck, ⟨hcontent.id, ?_, hcontent.conditions, hcontent.actions,
        hcontent.allowDestructive⟩⟩
      show check.version = (s.rewritten ++ [id]).count before.id
      rw [hversion, if_neg fun h => hid h.symm, Nat.add_zero]
      exact hcontent.version

theorem gate_createRule (hs : Gate s) (input : CreateAutomationRuleInput) :
    Gate (s.setStore (s.store.createRule input s.now).1) where
  distinct := by
    show ((s.store.rules ++ [_]).map AutomationRuleRecord.id).Nodup
    rw [List.map_append, List.nodup_append]
    refine ⟨hs.distinct, List.nodup_singleton _, ?_⟩
    intro a ha b hb
    obtain ⟨rule, hrule, rfl⟩ := List.mem_map.mp ha
    cases List.mem_singleton.mp hb
    exact (hs.rule_lt rule hrule).ne
  rule_lt rule hrule := by
    rcases List.mem_append.mp hrule with hrule | hrule
    · exact (hs.rule_lt rule hrule).trans (Nat.lt_succ_self _)
    · cases List.mem_singleton.mp hrule
      exact Nat.lt_succ_self _
  contents check hcheck rule hrule hid hversion := by
    rcases List.mem_append.mp hrule with hrule | hrule
    · exact hs.contents check hcheck rule hrule hid hversion
    · cases List.mem_singleton.mp hrule
      exact absurd hid (hs.known check hcheck).ne'
  past := hs.past
  known check hcheck := (hs.known check hcheck).trans (Nat.lt_succ_self _)
  validated rule hrule hai hsome := by
    rcases List.mem_append.mp hrule with hrule | hrule
    · exact hs.validated rule hrule hai hsome
    · cases List.mem_singleton.mp hrule
      cases hsome

end Store

/-! ## Calls -/

section Calls

variable {engine : AutomationEngine} {outcome : ActionOutcome} {s : GateState}

/-- Where a step leaves the checks as they were or adds to them, what was checked stays so. -/
theorem pending_mono {s' : GateState} (hmono : ∀ check ∈ s.checked, check ∈ s'.checked) {stage : Stage}
    (h : Pending s stage) : Pending s' stage := by
  have hchecked (read : ReadRule) (h : s.Checked read) : s'.Checked read := by
    obtain ⟨check, hcheck, hsame⟩ := h
    exact ⟨check, hmono check hcheck, hsame⟩
  cases stage with
  | validating read | enabling read => exact hmono read h
  | starting _ read _ | attempting _ read _ _ | running _ read _ _ _ => exact fun hai => hchecked read (h hai)
  | createRule | updateRule | updating | disabling | validateRule | enableRule | disableRule | handleEvent
  | handling | runExecution | readingRule | failing | returned | threw => trivial

/-- A validation is written onto the content that was read. -/
theorem checked_of_written (hs : Gate s) {read : ReadRule} (hread : read ∈ s.checked)
    (hguard : ∀ rule, s.store.getRule read.rule.id = some rule → rule.source = .ai →
      s.version read.rule.id = read.version) :
    ∀ rule ∈ s.store.rules, rule.id = read.rule.id → rule.source = .ai → s.Checked (s.read rule) := by
  intro rule hrule hid hai
  have hfound : s.store.getRule read.rule.id = some rule := by
    rw [← hid]
    exact Table.lookup_of_mem hs.distinct hrule
  refine ⟨read, hread, hs.contents read hread rule hrule hid ?_⟩
  rw [hid]
  exact hguard rule hfound hai

/-- What a step of a call leaves to the next. -/
structure Advanced (s : GateState) (next : GateState × Stage) : Prop where
  gate : Gate next.1
  pending : Pending next.1 next.2
  checked : ∀ check ∈ s.checked, check ∈ next.1.checked
  executed : ∀ run ∈ next.1.executed, run ∈ s.executed ∨
    run.action ∈ run.read.rule.actions ∧ (run.read.rule.source = .ai → s.Checked run.read)

/-- A step that says nothing of rules and calls no handler. -/
theorem advanced_congr (hs : Gate s) {next : GateState × Stage} (hrules : next.1.store.rules = s.store.rules)
    (hnext : next.1.store.nextRule = s.store.nextRule) (hrewritten : next.1.rewritten = s.rewritten)
    (hchecked : next.1.checked = s.checked)
    (hexecuted : next.1.executed = s.executed) (hpending : Pending s next.2) : Advanced s next where
  gate := gate_congr hs hrules hnext hrewritten hchecked
  pending := pending_mono (fun _ hcheck => hchecked ▸ hcheck) hpending
  checked _ hcheck := hchecked ▸ hcheck
  executed _ hrun := .inl (hexecuted ▸ hrun)

theorem rules_handleRule_nextRule (engine : AutomationEngine) (event : DomainEvent) (faults : RuleFaults)
    (rule : AutomationRuleRecord) (s : AutomationState) :
    (engine.handleRule event faults rule s).2.store.nextRule = s.store.nextRule := by
  have h := handledRule engine event faults rule s
  generalize engine.handleRule event faults rule s = answer at h
  cases h <;> rfl

theorem advanced_advance (hs : Gate s) {stage : Stage} (hpending : Pending s stage)
    (hguard : s.GuardedStage stage) : Advanced s (stage.advance engine outcome s) := by
  have hsame (stage : Stage) (hpending : Pending s stage) : Advanced s (s, stage) :=
    advanced_congr hs rfl rfl rfl rfl rfl hpending
  have hexecution (id : Id) (f : AutomationExecutionRecord → AutomationExecutionRecord) (stage : Stage)
      (hpending : Pending s stage) : Advanced s (s.setStore (s.store.modifyExecution id f), stage) :=
    advanced_congr hs rfl rfl rfl rfl rfl hpending
  have hswitch (id : Id) (enabled : Bool) (validatedAt : Option (Option Timestamp))
      (hmarks : ∀ time, validatedAt = some (some time) → ∀ rule ∈ s.store.rules, rule.id = id →
        rule.source = .ai → s.Checked (s.read rule)) :
      Advanced s (s.setStore (s.store.setRuleEnabled id enabled validatedAt), .returned) :=
    ⟨gate_setRuleEnabled hs id enabled validatedAt hmarks, trivial, fun _ hcheck => hcheck,
      fun _ hrun => .inl hrun⟩
  have hcheck (rule : AutomationRuleRecord) (id : Id) (hrule : s.store.getRule id = some rule) (stage : Stage)
      (hstage : Pending { s with checked := s.checked ++ [s.read rule] } stage) :
      Advanced s ({ s with checked := s.checked ++ [s.read rule] }, stage) :=
    ⟨gate_check hs (Table.mem_of_lookup hrule), hstage, fun _ hcheck => List.mem_append_left _ hcheck,
      fun _ hrun => .inl hrun⟩
  cases stage with
  | createRule input actor =>
      dsimp only [Stage.advance]
      split
      · exact hsame _ trivial
      · refine ⟨gate_createRule hs { input with enabled := false }, ?_, fun _ hcheck => hcheck,
          fun _ hrun => .inl hrun⟩
        dsimp only
        split <;> trivial
  | updateRule id patch actor =>
      dsimp only [Stage.advance]
      split
      · exact hsame _ trivial
      · split <;> exact hsame _ trivial
  | updating current patch actor =>
      dsimp only [Stage.advance]
      split
      · exact hsame _ trivial
      · refine ⟨gate_updateRule hs current.id patch, ?_, fun _ hcheck => hcheck, fun _ hrun => .inl hrun⟩
        dsimp only
        split
        · split <;> trivial
        · trivial
  | disabling id => exact hswitch id false (some none) nofun
  | validateRule id actor =>
      dsimp only [Stage.advance]
      split
      · exact hsame _ trivial
      · rename_i rule hrule
        split
        · exact hsame _ trivial
        · exact hcheck rule id hrule _ (List.mem_append_right _ (List.mem_singleton_self _))
  | validating read => exact hswitch _ _ _ fun _ _ => checked_of_written hs hpending hguard
  | enableRule id actor =>
      dsimp only [Stage.advance]
      split
      · exact hsame _ trivial
      · rename_i rule hrule
        split
        · exact hsame _ trivial
        · split
          · exact hsame _ trivial
          · exact hcheck rule id hrule _ (List.mem_append_right _ (List.mem_singleton_self _))
  | enabling read => exact hswitch _ _ _ fun _ _ => checked_of_written hs hpending hguard
  | disableRule id =>
      dsimp only [Stage.advance]
      split
      · exact hsame _ trivial
      · exact hswitch id false none nofun
  | handleEvent event => exact hsame _ trivial
  | handling event rules =>
      cases rules with
      | nil => exact hsame _ trivial
      | cons rule rules =>
          exact advanced_congr hs rules_handleRule (rules_handleRule_nextRule engine event {} rule s.system)
            rfl rfl rfl trivial
  | runExecution executionId actor =>
      dsimp only [Stage.advance]
      split
      · exact hsame _ trivial
      · refine hsame _ ?_
        split <;> trivial
  | readingRule execution actor =>
      dsimp only [Stage.advance]
      split
      · exact hsame _ trivial
      · rename_i rule hrule
        -- the content that the attempt reads is marked as validated, so it was checked
        refine hsame _ fun hai => ?_
        exact hs.validated rule (Table.mem_of_lookup hrule) hai (hguard rule hrule hai)
  | starting execution read actor =>
      refine hexecution execution.id _ _ ?_
      split
      · trivial
      · exact hpending
  | attempting execution read actor index =>
      dsimp only [Stage.advance]
      split
      · exact hexecution execution.id _ .returned trivial
      · rename_i action haction
        split
        · exact hsame _ hpending
        · split
          · exact hsame _ trivial
          · refine ⟨gate_congr hs rfl rfl rfl rfl, hpending, fun _ hcheck => hcheck, fun run hrun => ?_⟩
            rcases List.mem_append.mp hrun with hrun | hrun
            · exact .inl hrun
            · cases List.mem_singleton.mp hrun
              exact .inr ⟨List.mem_of_getElem? haction, hpending⟩
  | running execution read actor index action =>
      dsimp only [Stage.advance]
      cases outcome with
      | succeeded => exact hexecution execution.id _ (.attempting execution read actor (index + 1)) hpending
      | failed handed message => exact hexecution execution.id _ (.failing execution (.thrown message)) trivial
  | failing execution error => exact hexecution execution.id _ (.threw error) trivial
  | returned => exact hsame _ trivial
  | threw error => exact hsame _ trivial

end Calls

/-! ## Every run -/

/-- The store and all calls are as the gate demands. -/
structure GateHeld (s : GateState) : Prop where
  gate : Gate s
  pending : ∀ call ∈ s.calls, Pending s call.stage
  gated : s.Gated

section Runs

variable {engine : AutomationEngine} {s : GateState}

theorem gateHeld_step {event : GateEvent} (hs : GateHeld s) (hguard : s.Guarded event) :
    GateHeld (s.step engine event) := by
  cases event with
  | call id request =>
      unfold GateState.step
      dsimp only
      split
      · split
        · rename_i hrequest
          refine ⟨gate_congr hs.gate rfl rfl rfl rfl, fun call hcall => ?_, hs.gated⟩
          rcases Table.mem_upsert hcall with rfl | hcall
          · cases request with
            | createRule | updateRule | validateRule | enableRule | disableRule | handleEvent | runExecution =>
                trivial
            | updating | disabling | validating | enabling | handling | readingRule | starting | attempting
            | running | failing | returned | threw => cases hrequest
          · exact hs.pending call hcall
        · exact hs
      · exact hs
  | step id outcome =>
      unfold GateState.step
      dsimp only
      split
      · exact hs
      · rename_i call hcall
        have hmem := Table.mem_of_lookup hcall
        have hadvanced := @advanced_advance engine outcome _ hs.gate _
          (hs.pending call hmem) (hguard call hcall)
        refine ⟨gate_congr hadvanced.gate rfl rfl rfl rfl, fun other hother => ?_, fun run hrun => ?_⟩
        · rcases Table.mem_upsert hother with rfl | hother
          · exact hadvanced.pending
          · exact pending_mono hadvanced.checked (hs.pending other hother)
        · have hmono (read : ReadRule) (h : s.Checked read) :
              (call.stage.advance engine outcome s).1.Checked read := by
            obtain ⟨check, hcheck, hsame⟩ := h
            exact ⟨check, hadvanced.checked check hcheck, hsame⟩
          rcases hadvanced.executed run hrun with hrun | ⟨haction, hchecked⟩
          · obtain ⟨haction, hchecked⟩ := hs.gated run hrun
            exact ⟨haction, fun hai => hmono _ (hchecked hai)⟩
          · exact ⟨haction, fun hai => hmono _ (hchecked hai)⟩
  | wait milliseconds => exact ⟨gate_congr hs.gate rfl rfl rfl rfl, hs.pending, hs.gated⟩

/-- Where every attempt finds its generated rule validated and every validation is written onto the content that
was read, every action executed for a generated rule is of a content that was checked since it was last
rewritten. -/
theorem unchecked_never_runs (engine : AutomationEngine) (events : List GateEvent)
    (hguarded : Machine.Meets (GateState.step engine) GateState.Guarded {} events) :
    (Machine.run (GateState.step engine) {} events).Gated := by
  have hempty : GateHeld {} := by
    refine ⟨⟨List.nodup_nil, ?_, ?_, ?_, ?_, ?_⟩, ?_, ?_⟩
    · exact fun _ h => absurd h List.not_mem_nil
    · exact fun _ h => absurd h List.not_mem_nil
    · exact fun _ h => absurd h List.not_mem_nil
    · exact fun _ h => absurd h List.not_mem_nil
    · exact fun _ h => absurd h List.not_mem_nil
    · exact fun _ h => absurd h List.not_mem_nil
    · exact fun _ h => absurd h List.not_mem_nil
  exact (Machine.invariant_of_meets (I := GateHeld) (fun _ _ => gateHeld_step) hempty hguarded).gated

end Runs

/-- A call and its steps. -/
def wholeCall (id : Id) (request : Stage) (steps : ℕ) : List GateEvent :=
  .call id request :: List.replicate steps (.step id .succeeded)

/-- A generated rule is validated and enabled, and an event gives it an execution. -/
def generatedRule : List GateEvent :=
  wholeCall 0 (.createRule
      { trigger := "order.created", actions := [{ type := "createAuditLog" }], source := .ai } none) 1 ++
    wholeCall 1 (.validateRule 0 none) 2 ++ wholeCall 2 (.enableRule 0 none) 2 ++
    wholeCall 3 (.handleEvent orderCreated) 3

def generatedRuleAttempt : List GateEvent := wholeCall 5 (.runExecution 0 none) 6

theorem checked_content_runs :
    (Machine.run (GateState.step mailingEngine) {} (generatedRule ++ generatedRuleAttempt)).executed.length = 1 ∧
      (Machine.run (GateState.step mailingEngine) {} (generatedRule ++ generatedRuleAttempt)).Gated :=
  ⟨by decide, unchecked_never_runs mailingEngine _ (by decide)⟩

/-- The rule is updated, and disabled with that, before its execution is attempted. -/
def rewrittenRule : GateState :=
  Machine.run (GateState.step mailingEngine) {}
    (generatedRule ++ wholeCall 4 (.updateRule 0 { actions := some [{ type := "webhook" }] } none) 3 ++
      generatedRuleAttempt)

/-- The attempt runs the new content, which nobody has validated. -/
theorem unchecked_content_runs : ¬ rewrittenRule.Gated := by
  intro hgated
  have hran : ∃ run ∈ rewrittenRule.executed, run.read.rule.source = .ai ∧ run.action.type = "webhook" ∧
      ∀ check ∈ rewrittenRule.checked, check.version ≠ run.read.version := by
    decide
  obtain ⟨run, hrun, hai, -, hnone⟩ := hran
  obtain ⟨check, hcheck, hsame⟩ := (hgated run hrun).2 hai
  exact hnone check hcheck hsame.version

end DealFlow360.Automation
