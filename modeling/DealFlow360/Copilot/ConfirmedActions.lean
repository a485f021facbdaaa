import DealFlow360.Copilot.CopilotService
import DealFlow360.Lib.Lists
import DealFlow360.Lib.Machine

/-!
# Confirmed actions and the plan

What waits for a confirmation is taken from the report of the turn, whose
arguments are redacted, and is stored as a JSON text, which has no infinities
and no negative zero. A confirmed tool runs with what its schema makes of the
arguments that come back (`reread`).

`take_save` says what a confirmation takes of what was saved, from the
invariant that every token in the store was drawn (`Drawn`); `confirm_called`
what it runs. A turn saves the calls it leaves pending (`chat_pending`), so
that a confirmed action runs as planned exactly if it comes in time and the
schemas make the same of the arguments.

`path_redacted` is the plan with a path under an ordinary key: the handler gets
another argument than it would have got directly.
-/

namespace DealFlow360.Copilot

variable {δ : Type}

/-! ## What a confirmation promises -/

/-- What the tool's schema makes of some arguments. -/
def Registry.safeParse (registry : Registry δ) (name : String) (arguments : Arguments) : Option δ :=
  (registry.get name).bind fun tool => tool.safeParse arguments

/-- The arguments as they come back from the store: redacted, written as JSON and read again. -/
def reread (arguments : Arguments) : Arguments := parseFields (stringifyFields (redactArguments arguments))

namespace CopilotService

variable (copilot : CopilotService δ)

/-- The planned tools that the turn leaves pending. -/
def pendingTools (user : AuthenticatedUser) (plan : CopilotPlan) (returns : String → δ → Bool) :
    List CopilotPlannedTool :=
  (plan.planned.take maxToolsPerTurn).filter fun planned =>
    isPending (executeAiTool copilot.registry
      { user, confirmed := false, plannerConfidence := plan.confidence, returns } planned)

/-- The handler that the planned call runs when executed directly, and what it receives. -/
def directCall (user : AuthenticatedUser) (returns : String → δ → Bool) (planned : CopilotPlannedTool) :
    Option (String × δ) :=
  let execution := executeAiTool copilot.registry { user, confirmed := true, plannerConfidence := 1, returns } planned
  execution.called.map fun data => (execution.name, data)

/-- A turn that ends with `pending_confirmation`, confirmed by the same user after a while, runs what was pending
as it was planned. -/
def AsPlanned (s : CopilotState) (conversationId : String) (user : AuthenticatedUser) (plan : CopilotPlan)
    (returns returns' : String → δ → Bool) (milliseconds : ℕ) : Prop :=
  let turn := copilot.chat s conversationId user plan returns
  turn.1.status = .pendingConfirmation →
    (copilot.confirmPending (turn.2.wait milliseconds) conversationId user returns').1.called.map some =
      (copilot.pendingTools user plan returns).map (copilot.directCall user returns')

/-- The confirmation comes before it expires, and each tool's schema makes the same of the arguments that come back
as of the planned ones. -/
def ReadTheSame (s : CopilotState) (conversationId : String) (user : AuthenticatedUser) (plan : CopilotPlan)
    (returns : String → δ → Bool) (milliseconds : ℕ) : Prop :=
  (copilot.chat s conversationId user plan returns).1.status = .pendingConfirmation →
    milliseconds < confirmationTtlMs ∧
      ∀ planned ∈ copilot.pendingTools user plan returns,
        copilot.registry.safeParse planned.name (reread planned.arguments) =
          copilot.registry.safeParse planned.name planned.arguments

end CopilotService

/-! ## What executing a tool does -/

section Tools

variable {copilot : CopilotService δ} {context : ToolContext δ} {planned : CopilotPlannedTool}

theorem get_name {registry : Registry δ} {name : String} {tool : RegisteredAiTool δ}
    (h : registry.get name = some tool) : tool.name = name :=
  Table.key_of_lookup h

/-- What is confirmed runs with what the schema makes of the arguments. -/
theorem called_of_confirmed {registry : Registry δ} {tool : RegisteredAiTool δ}
    (hget : registry.get planned.name = some tool)
    (hpermission : hasPermission context.user tool.requiredPermission = true) (hconfirmed : context.confirmed = true) :
    ((executeAiTool registry context planned).called.map fun data =>
        ((executeAiTool registry context planned).name, data)) =
      (tool.safeParse planned.arguments).map fun data => (tool.name, data) := by
  unfold executeAiTool
  rw [hget]
  dsimp only
  rw [hpermission, if_neg (by decide)]
  cases tool.safeParse planned.arguments with
  | none => rfl
  | some data =>
      dsimp only
      rw [hconfirmed, Bool.not_true, Bool.and_false, if_neg (by decide)]
      rfl

/-- A pending tool is registered, permitted, and takes the arguments; the report has them redacted. -/
theorem of_isPending {registry : Registry δ} (h : isPending (executeAiTool registry context planned) = true) :
    (executeAiTool registry context planned).name = planned.name ∧
      (executeAiTool registry context planned).arguments = redactArguments planned.arguments ∧
        ∃ tool data, registry.get planned.name = some tool ∧
          hasPermission context.user tool.requiredPermission = true ∧
            tool.safeParse planned.arguments = some data := by
  unfold executeAiTool at h ⊢
  cases hget : registry.get planned.name with
  | none =>
      rw [hget] at h
      cases h
  | some tool =>
      rw [hget] at h
      dsimp only at h ⊢
      split_ifs at h ⊢ with hpermission
      · cases h
      · cases hparse : tool.safeParse planned.arguments with
        | none =>
            rw [hparse] at h
            cases h
        | some data =>
            refine ⟨?_, ?_, tool, data, rfl, by simpa using hpermission, hparse⟩
            · dsimp only
              split_ifs <;> exact get_name hget
            · dsimp only
              split_ifs <;> rfl

/-- Nothing that is confirmed is pending. -/
theorem not_isPending_of_confirmed {registry : Registry δ} (hconfirmed : context.confirmed = true) :
    isPending (executeAiTool registry context planned) = false := by
  unfold executeAiTool
  cases registry.get planned.name with
  | none => rfl
  | some tool =>
      dsimp only
      split_ifs
      · rfl
      · cases tool.safeParse planned.arguments with
        | none => rfl
        | some data =>
            dsimp only
            rw [hconfirmed, Bool.not_true, Bool.and_false, if_neg (by decide)]
            unfold isPending finishTool
            dsimp only
            split_ifs <;> rfl

end Tools

/-! ## What is stored and taken -/

/-- A call as it is read again. -/
def CopilotPlannedTool.stored (tool : CopilotPlannedTool) : CopilotPlannedTool :=
  { tool with arguments := parseFields (stringifyFields tool.arguments) }

theorem stringifyItems_eq (items : List JsonValue) : stringifyItems items = items.map JsonValue.stringify := by
  induction items with
  | nil => rfl
  | cons item items ih => rw [stringifyItems, ih, List.map_cons]

theorem parseItems_eq (items : List JsonDocument) : parseItems items = items.map JsonDocument.parse := by
  induction items with
  | nil => rfl
  | cons item items ih => rw [parseItems, ih, List.map_cons]

/-- The record comes back with its calls as they are read again. -/
theorem parsePending_encodePending (record : PendingCopilotCommand) :
    parsePending (encodePending record) =
      some { record with tools := record.tools.map CopilotPlannedTool.stored } := by
  have htools : (parseItems (stringifyItems (record.tools.map PendingCopilotCommand.value.toolValue))).filterMap
      parseTool = record.tools.map CopilotPlannedTool.stored := by
    have hone : parseTool ∘ (JsonDocument.parse ∘ JsonValue.stringify) ∘ PendingCopilotCommand.value.toolValue =
        some ∘ CopilotPlannedTool.stored := funext fun _ => rfl
    rw [stringifyItems_eq, parseItems_eq, List.map_map, List.map_map, List.filterMap_map, hone, List.filterMap_eq_map]
  change some { record with tools := (parseItems (stringifyItems
    (record.tools.map PendingCopilotCommand.value.toolValue))).filterMap parseTool } = _
  rw [htools]

/-- The tokens in the store are among those drawn. -/
structure Drawn (copilot : CopilotService δ) (s : CopilotState) : Prop where
  data : ∀ entry ∈ s.data, ∀ record ∈ parsePending entry.value, ∃ n < s.tokens, record.token = copilot.randomUUID n
  used : ∀ entry ∈ s.used, ∃ n < s.tokens, entry.key = copilot.randomUUID n

section Store

variable {copilot : CopilotService δ} {s : CopilotState} {conversationId userId : String}

theorem drawn_save (hs : Drawn copilot s) (tools : List CopilotPlannedTool) :
    Drawn copilot (s.save (copilot.randomUUID s.tokens) conversationId userId tools) := by
  refine ⟨fun entry hentry record hrecord => ?_, fun entry hentry => ?_⟩
  · rcases Table.mem_upsert hentry with rfl | hold
    · rw [Option.mem_def, parsePending_encodePending] at hrecord
      obtain rfl := Option.some.inj hrecord
      exact ⟨s.tokens, Nat.lt_succ_self _, rfl⟩
    · obtain ⟨n, hn, htoken⟩ := hs.data entry hold record hrecord
      exact ⟨n, hn.trans (Nat.lt_succ_self _), htoken⟩
  · obtain ⟨n, hn, hkey⟩ := hs.used entry hentry
    exact ⟨n, hn.trans (Nat.lt_succ_self _), hkey⟩

theorem drawn_clear (hs : Drawn copilot s) : Drawn copilot (s.clear conversationId) :=
  ⟨fun entry hentry => hs.data entry (List.mem_filter.mp hentry).1, hs.used⟩

theorem drawn_take (hs : Drawn copilot s) : Drawn copilot (s.take conversationId userId).2 := by
  unfold CopilotState.take
  cases hfound : (Expiring.get s.now conversationId s.data).bind parsePending with
  | none => exact hs
  | some record =>
      dsimp only
      split_ifs
      · exact hs
      · unfold Expiring.setNx
        split_ifs
        · exact hs
        · refine ⟨fun entry hentry => hs.data entry (List.mem_filter.mp hentry).1, fun entry hentry => ?_⟩
          rcases Table.mem_upsert hentry with rfl | hold
          · obtain ⟨value, hvalue, hparse⟩ := Option.bind_eq_some_iff.mp hfound
            obtain ⟨stored, hstored, rfl⟩ := Option.map_eq_some_iff.mp hvalue
            have hlookup := (Option.filter_eq_some_iff.mp hstored).1
            exact hs.data stored (Table.mem_of_lookup hlookup) record hparse
          · exact hs.used entry hold

theorem drawn_persist (hs : Drawn copilot s) (executions : List (AiToolExecution δ)) :
    Drawn copilot (copilot.persistAssistantTurn s conversationId userId executions).2 := by
  unfold CopilotService.persistAssistantTurn
  split_ifs
  · exact drawn_save hs _
  · exact drawn_clear hs

theorem drawn_step (hs : Drawn copilot s) (event : CopilotEvent δ) : Drawn copilot (copilot.step s event) := by
  cases event with
  | chat conversationId user plan returns =>
      unfold CopilotService.step CopilotService.chat
      dsimp only
      split_ifs
      · exact hs
      · exact drawn_persist hs _
  | confirm conversationId user returns =>
      have htaken : Drawn copilot (s.take conversationId user.id).2 := drawn_take hs
      unfold CopilotService.step CopilotService.confirmPending
      dsimp only
      generalize s.take conversationId user.id = taken at htaken
      obtain ⟨record, s'⟩ := taken
      cases record with
      | none => exact htaken
      | some pending =>
          dsimp only
          split_ifs
          · exact htaken
          · exact drawn_persist htaken _
  | wait milliseconds => exact ⟨hs.data, hs.used⟩

theorem drawn_start : Drawn copilot {} :=
  ⟨fun _ h => absurd h List.not_mem_nil, fun _ h => absurd h List.not_mem_nil⟩

/-- What was saved is taken until it expires. -/
theorem take_save (hs : Drawn copilot s) (conversationId userId : String) (tools : List CopilotPlannedTool)
    (milliseconds : ℕ) :
    (((s.save (copilot.randomUUID s.tokens) conversationId userId tools).wait milliseconds).take conversationId
        userId).1 =
      if milliseconds < confirmationTtlMs then
        some
          { token := copilot.randomUUID s.tokens, conversationId, userId
            tools := tools.map CopilotPlannedTool.stored
            expiresAt := (s.now + confirmationTtlMs : ℕ) }
      else none := by
  unfold CopilotState.take CopilotState.save CopilotState.wait
  dsimp only
  split_ifs with hlive
  · rw [Expiring.get_set_self (Nat.add_lt_add_left hlive _), Option.bind_some, parsePending_encodePending]
    dsimp only
    rw [if_neg]
    · have hnone : Table.lookup Expiring.Entry.key (copilot.randomUUID s.tokens) s.used = none := by
        rw [Table.lookup_eq_none]
        intro entry hentry hkey
        obtain ⟨n, hn, htoken⟩ := hs.used entry hentry
        exact hn.ne (copilot.distinct (htoken.symm.trans hkey))
      unfold Expiring.setNx Expiring.get
      rw [hnone]
      rfl
    · rintro (hne | hle)
      · exact hne rfl
      · have hlt : s.now + milliseconds < s.now + confirmationTtlMs := Nat.add_lt_add_left hlive _
        exact absurd (Nat.cast_le.mp hle) hlt.not_ge
  · rw [Expiring.get_set_expired (by decide) (Nat.add_le_add_left (not_lt.mp hlive) _)]
    rfl

end Store

/-! ## The confirmed turn -/

section Confirmation

variable {copilot : CopilotService δ} {s : CopilotState} {conversationId : String} {user : AuthenticatedUser}
  {plan : CopilotPlan} {returns returns' : String → δ → Bool}

theorem directCall_eq (planned : CopilotPlannedTool) {tool : RegisteredAiTool δ}
    (hget : copilot.registry.get planned.name = some tool)
    (hpermission : hasPermission user tool.requiredPermission = true) :
    copilot.directCall user returns' planned =
      (tool.safeParse planned.arguments).map fun data => (planned.name, data) := by
  unfold CopilotService.directCall
  dsimp only
  rw [called_of_confirmed hget hpermission rfl, get_name hget]

/-- A pending call, planned or as it is stored. -/
theorem directCall_of_pending {planned : CopilotPlannedTool}
    (h : planned ∈ copilot.pendingTools user plan returns) (arguments : Arguments) :
    copilot.directCall user returns' { planned with arguments } =
      (copilot.registry.safeParse planned.name arguments).map fun data => (planned.name, data) := by
  obtain ⟨-, -, tool, data, hget, hpermission, -⟩ := of_isPending (List.mem_filter.mp h).2
  unfold Registry.safeParse
  rw [directCall_eq { planned with arguments } hget hpermission, hget]
  rfl

theorem safeParse_of_pending {planned : CopilotPlannedTool}
    (h : planned ∈ copilot.pendingTools user plan returns) :
    (copilot.registry.safeParse planned.name planned.arguments).isSome = true := by
  obtain ⟨-, -, tool, data, hget, -, hparse⟩ := of_isPending (List.mem_filter.mp h).2
  unfold Registry.safeParse
  rw [hget, Option.bind_some, hparse]
  rfl

/-- A turn with something pending saves the pending calls with their arguments redacted. -/
theorem chat_pending (h : (copilot.chat s conversationId user plan returns).1.status = .pendingConfirmation) :
    copilot.pendingTools user plan returns ≠ [] ∧
      (copilot.chat s conversationId user plan returns).2 =
        s.save (copilot.randomUUID s.tokens) conversationId user.id
          ((copilot.pendingTools user plan returns).map fun planned =>
            { planned with arguments := redactArguments planned.arguments }) := by
  unfold CopilotService.chat CopilotService.persistAssistantTurn at h ⊢
  split_ifs at h ⊢ with hplanned hpending
  · obtain ⟨execution, hexecution, hstatus⟩ := List.any_eq_true.mp hpending
    obtain ⟨planned, hmem, rfl⟩ := List.mem_map.mp hexecution
    refine ⟨List.ne_nil_of_mem (List.mem_filter.mpr ⟨hmem, hstatus⟩), ?_⟩
    dsimp only
    refine congrArg _ ?_
    unfold executeTools CopilotService.pendingTools
    rw [List.filter_map, List.map_map]
    refine List.map_congr_left fun planned hplanned => ?_
    obtain ⟨hname, harguments, -⟩ := of_isPending (List.mem_filter.mp hplanned).2
    rw [Function.comp_apply, hname, harguments]

/-- What a confirmation of those calls runs. -/
theorem confirm_called {tools : List CopilotPlannedTool} {milliseconds : ℕ} (hs : Drawn copilot s)
    (hlength : tools.length ≤ maxToolsPerTurn) :
    (copilot.confirmPending ((s.save (copilot.randomUUID s.tokens) conversationId user.id tools).wait milliseconds)
        conversationId user returns').1.called =
      if milliseconds < confirmationTtlMs then
        (tools.map CopilotPlannedTool.stored).filterMap (copilot.directCall user returns')
      else [] := by
  have htake := take_save hs conversationId user.id tools milliseconds
  unfold CopilotService.confirmPending
  generalize ((s.save (copilot.randomUUID s.tokens) conversationId user.id tools).wait milliseconds).take
    conversationId user.id = taken at htake
  obtain ⟨record, s'⟩ := taken
  obtain rfl : record = _ := htake
  split_ifs
  · dsimp only
    split_ifs with hnil
    · rw [hnil]
      rfl
    · unfold CopilotService.persistAssistantTurn
      rw [if_neg]
      · unfold CopilotChatResult.called executeTools
        dsimp only
        rw [List.take_of_length_le (by rw [List.length_map]; exact hlength), List.filterMap_map]
        rfl
      · rw [Bool.not_eq_true, List.any_eq_false]
        intro execution hexecution
        obtain ⟨planned, -, rfl⟩ := List.mem_map.mp hexecution
        rw [not_isPending_of_confirmed rfl]
        exact Bool.false_ne_true
  · rfl

theorem asPlanned_iff (hs : Drawn copilot s) (milliseconds : ℕ) :
    copilot.AsPlanned s conversationId user plan returns returns' milliseconds ↔
      copilot.ReadTheSame s conversationId user plan returns milliseconds := by
  unfold CopilotService.AsPlanned CopilotService.ReadTheSame
  dsimp only
  refine forall_congr' fun hstatus => ?_
  obtain ⟨hne, hstate⟩ := chat_pending hstatus
  have hlength : (copilot.pendingTools user plan returns).length ≤ maxToolsPerTurn :=
    (List.length_filter_le _ _).trans (List.length_take_le _ _)
  have hdirect : ∀ planned ∈ copilot.pendingTools user plan returns,
      (copilot.directCall user returns' planned).isSome = true := by
    intro planned hplanned
    have hparse := safeParse_of_pending hplanned
    rw [directCall_of_pending hplanned planned.arguments, Option.isSome_map]
    exact hparse
  rw [hstate, confirm_called hs (by rw [List.length_map]; exact hlength)]
  by_cases hlive : milliseconds < confirmationTtlMs
  · rw [if_pos hlive, and_iff_right hlive, List.map_map, List.filterMap_map, Lists.filterMap_map_some_iff hdirect]
    refine forall₂_congr fun planned hplanned => ?_
    have hread : copilot.directCall user returns' planned = _ := directCall_of_pending hplanned planned.arguments
    have hstored : copilot.directCall user returns' { planned with arguments := reread planned.arguments } = _ :=
      directCall_of_pending hplanned (reread planned.arguments)
    refine Iff.trans (Eq.congr hstored hread) ?_
    exact (Option.map_injective fun _ _ h => (Prod.mk.inj h).2).eq_iff
  · rw [if_neg hlive]
    refine iff_of_false (fun h => hne ?_) fun h => hlive h.1
    exact List.map_eq_nil_iff.mp h.symm

end Confirmation

/-- After every run, a confirmed action runs as planned exactly if it is confirmed in time and the schemas make the
same of the arguments that come back. -/
theorem confirmed_as_planned_iff (copilot : CopilotService δ) (events : List (CopilotEvent δ)) (conversationId : String)
    (user : AuthenticatedUser) (plan : CopilotPlan) (returns returns' : String → δ → Bool) (milliseconds : ℕ) :
    copilot.AsPlanned (Machine.run copilot.step {} events) conversationId user plan returns returns' milliseconds ↔
      copilot.ReadTheSame (Machine.run copilot.step {} events) conversationId user plan returns milliseconds :=
  asPlanned_iff (Machine.invariant (I := Drawn copilot) (fun _ event hs => drawn_step hs event) drawn_start
    events) milliseconds

/-! ## A path that the handler never sees -/

/-- A copilot with one tool, which deletes the file that its argument `path` names. -/
def fileCopilot : CopilotService String where
  registry :=
    [{ name := "deleteFile"
       requiredPermission := "files.write"
       riskLevel := .high
       actionKind := some .deletion
       safeParse := fun arguments =>
         match arguments.lookup "path" with
         | some (.string path) => some path
         | _ => none }]
  randomUUID n := String.ofList (List.replicate n 'x')
  distinct first second h := by
    have hlength := congrArg (fun s => s.toList.length) h
    simpa using hlength

def ada : AuthenticatedUser where
  id := "ada"
  email := "ada@example.com"
  roles := ["user"]
  permissions := defaultUserPermissions

def deleteOldNotes : CopilotPlan where
  intent := .tool
  tools := [{ name := "deleteFile", arguments := [("path", .string "/home/ada/old.txt")] }]
  confidence := 1

/-- The handler receives `[path]`. -/
theorem path_redacted :
    ¬fileCopilot.AsPlanned {} "conversation" ada deleteOldNotes (fun _ _ => true) (fun _ _ => true) 0 := by
  unfold CopilotService.AsPlanned
  decide +kernel

end DealFlow360.Copilot
