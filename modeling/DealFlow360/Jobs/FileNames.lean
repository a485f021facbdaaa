import DealFlow360.Jobs.FileViews

/-!
# The names of job files

Every file and every status record is of a job that was enqueued, and is found
by the id of this job, as long as no two jobs have files of one name. Then a
call never takes another job for its own.

`Mentions` is about what is written anywhere in the state: every file, every
status record, every copy in memory and every call is of a job that was
enqueued. `NamesApart` adds that no two calls under way have one name. Both are
kept by every event, given that names are new when calls are made
(`mentions_step`, `Sorted.answers`).

From them: what is read under the name of a job is its record, and a call
answers only when its own job is recorded (`passed_of_recorded`).
-/

namespace DealFlow360.Jobs

/-- The arguments of an `enqueue`, with what `randomUUID` answers it. -/
structure EnqueueArguments where
  name : String
  options : JobEnqueueOptions
  uuid : String
  deriving DecidableEq, Repr

def EnqueueArguments.jobId (arguments : EnqueueArguments) : String :=
  arguments.options.jobId.getD arguments.uuid

def FileQueueEvent.enqueues : FileQueueEvent → Option EnqueueArguments
  | enqueue _ _ name options uuid => some { name, options, uuid }
  | _ => none

/-- `getJob` in the process. -/
def FileQueueState.getJob (s : FileQueueState) (q : ℕ) (jobId : String) : Option JobStatusRecord :=
  ((s.queues q).statuses.get s.statuses jobId).2

/-! ## The calls after a step -/

section Calls

variable {s : FileQueueState}

/-- A step adds a call that was just made, or brings one call on, or leaves the calls alone. -/
theorem enqueues_step (s : FileQueueState) (event : FileQueueEvent) (hcrash : ∀ q, event ≠ .crash q) :
    (s.step event).enqueues = s.enqueues ∨
      (∃ id queue name options uuid, event = .enqueue id queue name options uuid ∧
        Table.lookup FileEnqueue.id id s.enqueues = none ∧
        (s.step event).enqueues =
          Table.upsert FileEnqueue.id { id, queue, name, options, uuid } s.enqueues) ∨
      ∃ id call, event = .advanceEnqueue id ∧ Table.lookup FileEnqueue.id id s.enqueues = some call ∧
        (s.step event).enqueues =
          Table.upsert FileEnqueue.id { call with stage := (s.advanceEnqueue call).2 } s.enqueues := by
  cases event with
  | enqueue id queue name options uuid =>
      cases hlookup : Table.lookup FileEnqueue.id id s.enqueues with
      | some call =>
          refine .inl ?_
          unfold FileQueueState.step
          dsimp only
          rw [hlookup]
      | none =>
          refine .inr (.inl ⟨id, queue, name, options, uuid, rfl, hlookup, ?_⟩)
          unfold FileQueueState.step
          dsimp only
          rw [hlookup]
  | advanceEnqueue id =>
      cases hlookup : Table.lookup FileEnqueue.id id s.enqueues with
      | none =>
          refine .inl ?_
          unfold FileQueueState.step
          dsimp only
          rw [hlookup]
      | some call =>
          refine .inr (.inr ⟨id, call, rfl, hlookup, ?_⟩)
          unfold FileQueueState.step
          dsimp only
          rw [hlookup]
  | process q name => exact .inl (enqueues_ensureTimer _ q)
  | advanceRecovery id pick =>
      refine .inl ?_
      unfold FileQueueState.step
      dsimp only
      split
      · rfl
      · exact enqueues_advanceRecovery s _ pick
  | tick q =>
      refine .inl ?_
      unfold FileQueueState.step
      dsimp only
      split
      · exact enqueues_startTick s q
      · rfl
  | advanceTick q pick => exact .inl (enqueues_advanceTick s q pick)
  | settle q outcome =>
      refine .inl ?_
      unfold FileQueueState.step FileQueueState.settle
      dsimp only
      split
      · exact enqueues_settled _ q _ _ _ _
      · rfl
  | timeout q =>
      refine .inl ?_
      unfold FileQueueState.step FileQueueState.timeout
      dsimp only
      split
      · split
        · rfl
        · split
          · rfl
          · exact enqueues_settled _ q _ _ _ _
      · rfl
  | «return» | close | wait => exact .inl rfl
  | crash q => exact absurd rfl (hcrash q)

/-- The clock has not gone back, and no status file is gone. -/
structure Later (s s' : FileQueueState) : Prop where
  now : s.now ≤ s'.now
  statuses : ∀ jobId, (s.statuses.file jobId).isSome = true → (s'.statuses.file jobId).isSome = true

theorem later_of_eq {s' : FileQueueState} (hnow : s'.now = s.now) (hstatuses : s'.statuses = s.statuses) :
    Later s s' := by
  refine ⟨hnow.ge, fun jobId hfile => ?_⟩
  rw [hstatuses]
  exact hfile

theorem later_persist (s : FileQueueState) (record : JobStatusRecord) :
    Later s { s with statuses := s.statuses.persist record } := by
  refine ⟨le_rfl, fun jobId hfile => ?_⟩
  unfold StatusDirectory.file StatusDirectory.persist at *
  rw [Option.isSome_map] at hfile ⊢
  dsimp only
  rw [Table.lookup_upsert]
  split
  · rfl
  · exact hfile

theorem later_startTick (s : FileQueueState) (q : ℕ) : Later s (s.startTick q) := by
  unfold FileQueueState.startTick
  split <;> exact later_of_eq rfl rfl

theorem later_moveBack (s : FileQueueState) (file : String) : Later s (s.moveBack file) := by
  unfold FileQueueState.moveBack
  split <;> exact later_of_eq rfl rfl

theorem later_ensureTimer (s : FileQueueState) (q : ℕ) : Later s (s.ensureTimer q) := by
  unfold FileQueueState.ensureTimer
  dsimp only
  split <;> exact later_of_eq rfl rfl

theorem Later.of_start {s₁ s₂ : FileQueueState} (h : Later s₁ s₂) (hnow : s₁.now = s.now)
    (hstatuses : s₁.statuses = s.statuses) : Later s s₂ := by
  refine ⟨hnow ▸ h.now, fun jobId hfile => h.statuses jobId ?_⟩
  rw [hstatuses]
  exact hfile

theorem later_advanceEnqueue (s : FileQueueState) (call : FileEnqueue) :
    Later s (s.advanceEnqueue call).1 := by
  unfold FileQueueState.advanceEnqueue
  cases call.stage with
  | called =>
      dsimp only
      split
      · exact later_of_eq rfl rfl
      · split <;> exact later_of_eq rfl rfl
  | recording job availableAt => exact later_persist s _
  | writing job availableAt => exact (later_ensureTimer _ _).of_start rfl rfl
  | _ => exact later_of_eq rfl rfl

theorem later_advanceRecovery (s : FileQueueState) (recovery : Recovery) (pick : ℕ) :
    Later s (s.advanceRecovery recovery pick).1 := by
  unfold FileQueueState.advanceRecovery
  split
  · exact later_of_eq rfl rfl
  · split
    · exact later_of_eq rfl rfl
    · exact (later_startTick _ _).of_start rfl rfl
  · split
    · exact later_of_eq rfl rfl
    · exact later_moveBack s _

theorem later_advanceHold (s : FileQueueState) (q : ℕ) (file : String) (files : List String)
    (stage : HoldStage) : Later s (s.advanceHold q file files stage) := by
  unfold FileQueueState.advanceHold
  cases stage with
  | returning => exact ⟨(later_moveBack s file).now, (later_moveBack s file).statuses⟩
  | patching job update =>
      dsimp only
      split <;> exact later_of_eq rfl rfl
  | persisting job update record => exact ⟨(later_persist s record).now, (later_persist s record).statuses⟩
  | _ => exact later_of_eq rfl rfl

theorem later_advanceTick (s : FileQueueState) (q pick : ℕ) : Later s (s.advanceTick q pick) := by
  unfold FileQueueState.advanceTick
  split
  · exact later_of_eq rfl rfl
  · exact later_of_eq rfl rfl
  · exact later_of_eq rfl rfl
  · split
    · exact later_of_eq rfl rfl
    · split
      · exact later_of_eq rfl rfl
      · split <;> exact later_of_eq rfl rfl
  · exact later_advanceHold s q _ _ _

theorem later_settled (s : FileQueueState) (q : ℕ) (file : String) (files : List String) (job : FileJob)
    (outcome : JobOutcome) : Later s (s.settled q file files job outcome) := by
  unfold FileQueueState.settled
  split
  · exact later_of_eq rfl rfl
  · split <;> exact later_of_eq rfl rfl

theorem later_step (s : FileQueueState) (event : FileQueueEvent) : Later s (s.step event) := by
  cases event with
  | enqueue =>
      unfold FileQueueState.step
      dsimp only
      split <;> exact later_of_eq rfl rfl
  | process q name => exact (later_ensureTimer _ q).of_start rfl rfl
  | advanceEnqueue id =>
      unfold FileQueueState.step
      dsimp only
      split
      · exact later_of_eq rfl rfl
      · rename_i call _
        exact ⟨(later_advanceEnqueue s call).now, (later_advanceEnqueue s call).statuses⟩
  | advanceRecovery id pick =>
      unfold FileQueueState.step
      dsimp only
      split
      · exact later_of_eq rfl rfl
      · rename_i recovery _
        exact ⟨(later_advanceRecovery s recovery pick).now, (later_advanceRecovery s recovery pick).statuses⟩
  | tick q =>
      unfold FileQueueState.step
      dsimp only
      split
      · exact later_startTick s q
      · exact later_of_eq rfl rfl
  | advanceTick q pick => exact later_advanceTick s q pick
  | settle q outcome =>
      unfold FileQueueState.step FileQueueState.settle
      dsimp only
      split
      · exact (later_settled _ q _ _ _ _).of_start rfl rfl
      · exact later_of_eq rfl rfl
  | timeout q =>
      unfold FileQueueState.step FileQueueState.timeout
      dsimp only
      split
      · split
        · exact later_of_eq rfl rfl
        · split
          · exact later_of_eq rfl rfl
          · exact (later_settled _ q _ _ _ _).of_start rfl rfl
      · exact later_of_eq rfl rfl
  | «return» | close | crash => exact later_of_eq rfl rfl
  | wait milliseconds => exact ⟨Nat.le_add_right _ _, fun _ hfile => hfile⟩

end Calls

/-! ## The jobs that are mentioned -/

/-- The call has built its job and remembers its status, or has gone on from there. -/
def FileEnqueueStage.recorded : FileEnqueueStage → Bool
  | recording _ _ | writing _ _ | answered _ => true
  | _ => false

/-- A call of this id and name has remembered its status. -/
def FileQueueState.Recorded (s : FileQueueState) (jobId name : String) : Prop :=
  ∃ call ∈ s.enqueues, call.stage.recorded = true ∧ call.jobId = jobId ∧ call.name = name

/-- Every job that the tick has in hand is one of `P`. -/
def HoldStage.Mentions (P : String → String → Prop) : HoldStage → Prop
  | patching job _ | starting job | handling job _ | rewriting job => P job.id job.name
  | persisting job _ record => P job.id job.name ∧ P record.jobId record.type
  | _ => True

/-- Every file, record and invocation is of a job of `P`, and found by the id of this job. -/
structure Mentions (P : String → String → Prop) (s : FileQueueState) : Prop where
  pending : ∀ file ∈ s.pending, P file.job.id file.job.name
  processing : ∀ file ∈ s.processing, P file.job.id file.job.name
  statuses : ∀ file ∈ s.statuses,
    P file.record.jobId file.record.type ∧ file.name = filePath file.record.jobId
  memory : ∀ q, ∀ entry ∈ (s.queues q).statuses.memory,
    P entry.jobId entry.record.type ∧ entry.record.jobId = entry.jobId
  tick : ∀ q file stage files, (s.queues q).tick = some (.holding file stage files) → stage.Mentions P
  invocations : ∀ invocation ∈ s.invocations, P invocation.job.id invocation.job.name

section Mentioned

variable {P : String → String → Prop} {s : FileQueueState}

theorem Mentions.mono {Q : String → String → Prop} (h : Mentions P s) (hPQ : ∀ id name, P id name → Q id name) :
    Mentions Q s where
  pending file hfile := hPQ _ _ (h.pending file hfile)
  processing file hfile := hPQ _ _ (h.processing file hfile)
  statuses file hfile := ⟨hPQ _ _ (h.statuses file hfile).1, (h.statuses file hfile).2⟩
  memory q entry hentry := ⟨hPQ _ _ (h.memory q entry hentry).1, (h.memory q entry hentry).2⟩
  tick q file stage files htick := by
    have hstage := h.tick q file stage files htick
    cases stage with
    | persisting => exact ⟨hPQ _ _ hstage.1, hPQ _ _ hstage.2⟩
    | patching | starting | handling | rewriting => exact hPQ _ _ hstage
    | _ => trivial
  invocations invocation hinvocation := hPQ _ _ (h.invocations invocation hinvocation)

theorem mem_of_read {directory : JobDirectory} {file : String} {job : FileJob}
    (h : directory.read file = some job) : ∃ entry ∈ directory, entry.name = file ∧ entry.job = job := by
  obtain ⟨entry, hentry, hjob⟩ := Option.map_eq_some_iff.mp h
  exact ⟨entry, Table.mem_of_lookup hentry, Table.key_of_lookup hentry, hjob⟩

theorem Mentions.job_of_file (h : Mentions P s) {file : String} {job : FileJob}
    (hfile : s.pending.read file = some job ∨ s.processing.read file = some job) : P job.id job.name := by
  rcases hfile with hfile | hfile
  · obtain ⟨entry, hentry, -, rfl⟩ := mem_of_read hfile
    exact h.pending entry hentry
  · obtain ⟨entry, hentry, -, rfl⟩ := mem_of_read hfile
    exact h.processing entry hentry

/-- What is read for an id is a record of `P` whose file has the name of the id. -/
theorem Mentions.record_of_read (h : Mentions P s) {q : ℕ} {jobId : String} {record : JobStatusRecord}
    (hget : s.getJob q jobId = some record) :
    P record.jobId record.type ∧ filePath record.jobId = filePath jobId := by
  unfold FileQueueState.getJob at hget
  rw [get_answer] at hget
  rcases Option.or_eq_some_iff.mp hget with hcached | ⟨-, hread⟩
  · obtain ⟨entry, hentry, rfl⟩ := Option.map_eq_some_iff.mp hcached
    obtain ⟨hP, hid⟩ := h.memory q entry (Table.mem_of_lookup hentry)
    refine ⟨hid ▸ hP, ?_⟩
    rw [hid, Table.key_of_lookup hentry]
  · obtain ⟨file, hfile, rfl⟩ := Option.map_eq_some_iff.mp (Option.filter_eq_some_iff.mp hread).1
    obtain ⟨hP, hname⟩ := h.statuses file (Table.mem_of_lookup hfile)
    exact ⟨hP, hname.symm.trans (Table.key_of_lookup hfile)⟩

/-! ### One change -/

theorem Mentions.setQueue (h : Mentions P s) (q : ℕ) (f : FileJobQueue → FileJobQueue)
    (hmemory : ∀ entry ∈ (f (s.queues q)).statuses.memory,
      P entry.jobId entry.record.type ∧ entry.record.jobId = entry.jobId)
    (htick : ∀ file stage files, (f (s.queues q)).tick = some (.holding file stage files) →
      stage.Mentions P) : Mentions P (s.setQueue q f) := by
  refine ⟨h.pending, h.processing, h.statuses, ?_, ?_, h.invocations⟩
  · intro p entry hentry
    by_cases hp : p = q
    · subst hp
      rw [setQueue_self] at hentry
      exact hmemory entry hentry
    · rw [setQueue_of_ne hp] at hentry
      exact h.memory p entry hentry
  · intro p file stage files hheld
    by_cases hp : p = q
    · subst hp
      rw [setQueue_self] at hheld
      exact htick file stage files hheld
    · rw [setQueue_of_ne hp] at hheld
      exact h.tick p file stage files hheld

theorem Mentions.setTick (h : Mentions P s) (q : ℕ) {stage : Option TickStage}
    (hstage : ∀ file hold files, stage = some (.holding file hold files) → hold.Mentions P) :
    Mentions P (s.setTick q stage) :=
  h.setQueue q _ (h.memory q) hstage

theorem Mentions.holding (h : Mentions P s) (q : ℕ) {file : String} {stage : HoldStage} {files : List String}
    (hstage : stage.Mentions P) : Mentions P (s.setTick q (some (.holding file stage files))) := by
  refine h.setTick q fun other hold rest hholding => ?_
  cases hholding
  exact hstage

theorem Mentions.released (h : Mentions P s) (q : ℕ) {stage : Option TickStage}
    (hstage : stage.bind TickStage.hold = none) : Mentions P (s.setTick q stage) := by
  refine h.setTick q fun file hold files hholding => ?_
  rw [hholding] at hstage
  cases hstage

theorem Mentions.startTick (h : Mentions P s) (q : ℕ) : Mentions P (s.startTick q) := by
  unfold FileQueueState.startTick
  split
  · exact h
  · exact h.released q rfl

theorem Mentions.ensureTimer (h : Mentions P s) (q : ℕ) : Mentions P (s.ensureTimer q) := by
  unfold FileQueueState.ensureTimer
  dsimp only
  split
  · exact h
  · exact ⟨h.pending, h.processing, h.statuses, h.memory, h.tick, h.invocations⟩

theorem mentions_write {directory : JobDirectory} (h : ∀ file ∈ directory, P file.job.id file.job.name)
    {job : FileJob} (hjob : P job.id job.name) (name : String) :
    ∀ file ∈ directory.write name job, P file.job.id file.job.name := by
  intro file hfile
  rcases Table.mem_upsert hfile with rfl | hfile
  · exact hjob
  · exact h file hfile

theorem mentions_unlink {directory : JobDirectory} (h : ∀ file ∈ directory, P file.job.id file.job.name)
    (name : String) : ∀ file ∈ directory.unlink name, P file.job.id file.job.name :=
  fun file hfile => h file (Table.mem_erase.mp hfile).1

theorem Mentions.persist (h : Mentions P s) {record : JobStatusRecord} (hrecord : P record.jobId record.type) :
    Mentions P { s with statuses := s.statuses.persist record } := by
  refine ⟨h.pending, h.processing, ?_, h.memory, h.tick, h.invocations⟩
  intro file hfile
  rcases Table.mem_upsert hfile with rfl | hfile
  · exact ⟨hrecord, rfl⟩
  · exact h.statuses file hfile

theorem Mentions.moveBack (h : Mentions P s) (file : String) : Mentions P (s.moveBack file) := by
  unfold FileQueueState.moveBack
  split
  · exact h
  · rename_i job hfile
    exact ⟨mentions_write h.pending (h.job_of_file (.inr hfile)) file, mentions_unlink h.processing file,
      h.statuses, h.memory, h.tick, h.invocations⟩

theorem Mentions.setInvocation (h : Mentions P s) (id : ℕ) {f : Invocation → Invocation}
    (hf : ∀ invocation, (f invocation).job = invocation.job) : Mentions P (s.setInvocation id f) := by
  refine ⟨h.pending, h.processing, h.statuses, h.memory, h.tick, ?_⟩
  intro invocation hinvocation
  obtain ⟨before, hbefore, rfl⟩ := List.mem_map.mp hinvocation
  split
  · rw [hf]
    exact h.invocations before hbefore
  · exact h.invocations before hbefore

/-- What a process remembers after it has looked for the status of a job of `P`. -/
theorem mentions_remember {tracker : JobStatusTracker} (h : ∀ entry ∈ tracker.memory,
      P entry.jobId entry.record.type ∧ entry.record.jobId = entry.jobId)
    {record : JobStatusRecord} (hrecord : P record.jobId record.type) :
    ∀ entry ∈ (tracker.remember record.jobId record).memory,
      P entry.jobId entry.record.type ∧ entry.record.jobId = entry.jobId := by
  intro entry hentry
  rcases Table.mem_upsert hentry with rfl | hentry
  · exact ⟨hrecord, rfl⟩
  · exact h entry hentry

/-- A process that finds no record, or one of the id it looks for, remembers records under their ids. -/
theorem Mentions.memory_get (h : Mentions P s) (q : ℕ) {jobId : String}
    (hid : ∀ record, s.getJob q jobId = some record → record.jobId = jobId) :
    ∀ entry ∈ ((s.queues q).statuses.get s.statuses jobId).1.memory,
      P entry.jobId entry.record.type ∧ entry.record.jobId = entry.jobId := by
  have hget {record : JobStatusRecord} (hfound : s.getJob q jobId = some record) :
      P record.jobId record.type := (h.record_of_read hfound).1
  unfold FileQueueState.getJob at hid hget
  unfold JobStatusTracker.get at hid hget ⊢
  cases hcached : (s.queues q).statuses.cached jobId with
  | some record => exact h.memory q
  | none =>
      rw [hcached] at hid hget
      dsimp only at hid hget ⊢
      cases hread : s.statuses.read jobId with
      | none => exact h.memory q
      | some record =>
          rw [hread] at hid hget
          have hsame : record.jobId = jobId := hid record rfl
          have hremembered := mentions_remember (h.memory q) (hget rfl)
          rw [hsame] at hremembered
          exact hremembered

/-! ### Every event -/

/-- Jobs of `P` whose files have one name have one id. -/
def Separates (P : String → String → Prop) : Prop :=
  ∀ {id name id' name'}, P id name → P id' name' → filePath id = filePath id' → id = id'

theorem jobId_of_checkedId {call : FileEnqueue} {jobId : String} (h : call.options.checkedId = some jobId) :
    call.jobId = jobId := by
  have hgiven : call.options.jobId = some jobId := (Option.filter_eq_some_iff.mp h).1
  unfold FileEnqueue.jobId
  rw [hgiven]
  rfl

/-- Nothing is found for a job whose files have a name of their own. -/
theorem Mentions.getJob_eq_none (h : Mentions P s) {q : ℕ} {jobId : String}
    (hfree : ∀ id name, P id name → filePath id ≠ filePath jobId) : s.getJob q jobId = none := by
  cases hget : s.getJob q jobId with
  | none => rfl
  | some record =>
      obtain ⟨hP, hfile⟩ := h.record_of_read hget
      exact absurd hfile (hfree _ _ hP)

theorem mentions_advanceEnqueue (h : Mentions P s) {call : FileEnqueue} (hbuilt : call.Built)
    (hcalled : call.stage = .called → ∀ id name, P id name → filePath id ≠ filePath call.jobId)
    (hrecorded : call.stage = .passed ∨ call.stage.recorded = true → P call.jobId call.name) :
    Mentions P (s.advanceEnqueue call).1 := by
  unfold FileQueueState.advanceEnqueue
  cases hstage : call.stage with
  | called =>
      dsimp only
      split
      · exact h
      · split
        · exact h
        · rename_i jobId hchecked
          have hfree := hcalled hstage
          rw [jobId_of_checkedId hchecked] at hfree
          have hmemory := h.memory_get call.queue fun record hfound => by
            rw [h.getJob_eq_none hfree] at hfound
            cases hfound
          dsimp only
          refine h.setQueue call.queue _ ?_ ?_
          · exact hmemory
          · exact h.tick call.queue
  | probingPending | probingProcessing | answered | refused => exact h
  | passed =>
      dsimp only
      refine h.setQueue call.queue _ ?_ ?_
      · exact mentions_remember (h.memory _) (hrecorded (.inl hstage))
      · exact h.tick call.queue
  | recording job availableAt =>
      obtain ⟨defaults, now, rfl⟩ := hbuilt job availableAt (.inl hstage)
      exact @Mentions.persist _ _ h (createJobStatus (createJob _ _ _ _ _) _)
        (hrecorded (.inr (by rw [hstage]; rfl)))
  | writing job availableAt =>
      obtain ⟨defaults, now, rfl⟩ := hbuilt job availableAt (.inr hstage)
      refine Mentions.ensureTimer ?_ call.queue
      exact ⟨mentions_write h.pending (hrecorded (.inr (by rw [hstage]; rfl))) _, h.processing, h.statuses, h.memory,
        h.tick, h.invocations⟩

theorem mentions_advanceRecovery (h : Mentions P s) (recovery : Recovery) (pick : ℕ) :
    Mentions P (s.advanceRecovery recovery pick).1 := by
  unfold FileQueueState.advanceRecovery
  split
  · exact h
  · split
    · exact h
    · refine Mentions.startTick ?_ recovery.queue
      refine h.setQueue recovery.queue _ ?_ ?_
      · exact h.memory _
      · exact h.tick _
  · split
    · exact h
    · exact h.moveBack _

theorem patch_type (job : FileJob) (now : Timestamp) (update : StatusUpdate) :
    (update.patch job now).type = none := by
  cases update <;> rfl

theorem mentions_next {job : FileJob} (h : P job.id job.name) (update : StatusUpdate) :
    (FileQueueState.StatusUpdate.next job update).Mentions P := by
  cases update with
  | processing => exact h
  | retrying => exact h
  | _ => trivial

theorem mentions_advanceHold (hP : Separates P) (h : Mentions P s) (q : ℕ) (file : String) (files : List String)
    {stage : HoldStage} (hstage : stage.Mentions P) : Mentions P (s.advanceHold q file files stage) := by
  have hunlinked (name : String) :
      Mentions P { s with processing := s.processing.unlink name } :=
    ⟨h.pending, mentions_unlink h.processing name, h.statuses, h.memory, h.tick, h.invocations⟩
  unfold FileQueueState.advanceHold
  cases stage with
  | claimed =>
      refine h.holding q ?_
      unfold FileQueueState.afterRead
      split
      · trivial
      · rename_i job hfile
        split
        · trivial
        · split
          · trivial
          · split
            · trivial
            · have hjob := h.job_of_file (.inr hfile)
              exact hjob
  | dropping => exact (hunlinked file).released q rfl
  | returning => exact (h.moveBack file).released q rfl
  | patching job update =>
      have hfound (record : JobStatusRecord) (hget : s.getJob q job.id = some record) :
          P record.jobId record.type ∧ record.jobId = job.id := by
        obtain ⟨hrecord, hfile⟩ := h.record_of_read hget
        exact ⟨hrecord, hP hrecord hstage hfile⟩
      have hmemory := h.memory_get q fun record hget => (hfound record hget).2
      unfold FileQueueState.getJob at hfound
      dsimp only
      split
      · refine Mentions.holding ?_ q (mentions_next hstage update)
        refine h.setQueue q _ ?_ ?_
        · exact hmemory
        · exact h.tick q
      · rename_i current hcurrent
        have hpatched : P (current.patched (update.patch job s.now)).jobId
            (current.patched (update.patch job s.now)).type := by
          unfold JobStatusRecord.patched
          rw [patch_type]
          exact (hfound current hcurrent).1
        refine Mentions.holding ?_ q ⟨hstage, hpatched⟩
        refine h.setQueue q _ ?_ ?_
        · exact mentions_remember hmemory hpatched
        · exact h.tick q
  | persisting job update record =>
      exact (h.persist hstage.2).holding q (mentions_next hstage.1 update)
  | starting job =>
      refine Mentions.holding ?_ q hstage
      refine ⟨h.pending, h.processing, h.statuses, h.memory, h.tick, ?_⟩
      intro invocation hinvocation
      rcases List.mem_append.mp hinvocation with hinvocation | hinvocation
      · exact h.invocations invocation hinvocation
      · cases List.mem_singleton.mp hinvocation
        exact hstage
  | handling => exact h
  | rewriting job =>
      refine Mentions.holding ?_ q trivial
      exact ⟨mentions_write h.pending hstage _, h.processing, h.statuses, h.memory, h.tick, h.invocations⟩
  | unlinking => exact (hunlinked file).released q rfl

theorem mentions_advanceTick (hP : Separates P) (h : Mentions P s) (q pick : ℕ) :
    Mentions P (s.advanceTick q pick) := by
  unfold FileQueueState.advanceTick
  split
  · exact h
  · exact h.released q rfl
  · exact h.released q rfl
  · split
    · exact h.released q rfl
    · split
      · exact h
      · split
        · exact h.released q rfl
        · rename_i job hfile
          refine Mentions.holding ?_ q trivial
          exact ⟨mentions_unlink h.pending _, mentions_write h.processing (h.job_of_file (.inl hfile)) _,
            h.statuses, h.memory, h.tick, h.invocations⟩
  · rename_i file stage files htick
    exact mentions_advanceHold hP h q file files (h.tick q file stage files htick)

theorem mentions_settled (h : Mentions P s) (q : ℕ) (file : String) (files : List String) {job : FileJob}
    (hjob : P job.id job.name) (outcome : JobOutcome) : Mentions P (s.settled q file files job outcome) := by
  unfold FileQueueState.settled
  split
  · exact h.holding q hjob
  · split <;> exact h.holding q hjob

/-- A step mentions no other jobs, but for the one whose `enqueue` it takes on. -/
theorem mentions_step (hP : Separates P) (h : Mentions P s) (hbuilt : AllBuilt s) (event : FileQueueEvent)
    (hcall : ∀ id call, event = .advanceEnqueue id → Table.lookup FileEnqueue.id id s.enqueues = some call →
      (call.stage = .called → ∀ id name, P id name → filePath id ≠ filePath call.jobId) ∧
        (call.stage = .passed ∨ call.stage.recorded = true → P call.jobId call.name)) :
    Mentions P (s.step event) := by
  cases event with
  | enqueue id queue name options uuid =>
      unfold FileQueueState.step
      dsimp only
      split
      · exact h
      · exact ⟨h.pending, h.processing, h.statuses, h.memory, h.tick, h.invocations⟩
  | process q name =>
      refine Mentions.ensureTimer ?_ q
      refine h.setQueue q _ ?_ ?_
      · exact h.memory q
      · exact h.tick q
  | advanceEnqueue id =>
      unfold FileQueueState.step
      dsimp only
      split
      · exact h
      · rename_i call hlookup
        obtain ⟨hcalled, hrecorded⟩ := hcall id call rfl hlookup
        have hadvanced := mentions_advanceEnqueue h (hbuilt call (Table.mem_of_lookup hlookup)) hcalled hrecorded
        exact ⟨hadvanced.pending, hadvanced.processing, hadvanced.statuses, hadvanced.memory, hadvanced.tick,
          hadvanced.invocations⟩
  | advanceRecovery id pick =>
      unfold FileQueueState.step
      dsimp only
      split
      · exact h
      · rename_i recovery hlookup
        have hadvanced := mentions_advanceRecovery h recovery pick
        exact ⟨hadvanced.pending, hadvanced.processing, hadvanced.statuses, hadvanced.memory, hadvanced.tick,
          hadvanced.invocations⟩
  | tick q =>
      unfold FileQueueState.step
      dsimp only
      split
      · exact h.startTick q
      · exact h
  | advanceTick q pick => exact mentions_advanceTick hP h q pick
  | settle q outcome =>
      unfold FileQueueState.step FileQueueState.settle
      dsimp only
      split
      · rename_i file job invocation files htick
        refine mentions_settled ?_ q file files (h.tick q file _ files htick) outcome
        exact h.setInvocation invocation fun _ => rfl
      · exact h
  | timeout q =>
      unfold FileQueueState.step FileQueueState.timeout
      dsimp only
      split
      · rename_i file job invocation files htick
        split
        · exact h
        · split
          · exact h
          · refine mentions_settled ?_ q file files (h.tick q file _ files htick) _
            exact h.setInvocation invocation fun _ => rfl
      · exact h
  | «return» invocation outcome =>
      refine h.setInvocation invocation fun other => ?_
      split <;> rfl
  | close q =>
      unfold FileQueueState.step
      dsimp only
      refine h.setQueue q _ ?_ ?_
      · exact h.memory q
      · exact h.tick q
  | crash q =>
      have hstopped := h.setQueue q (fun queue => { defaults := queue.defaults })
        (fun _ hentry => absurd hentry List.not_mem_nil) (fun _ _ _ htick => by cases htick)
      refine ⟨h.pending, h.processing, h.statuses, hstopped.memory, hstopped.tick, ?_⟩
      intro invocation hinvocation
      obtain ⟨before, hbefore, rfl⟩ := List.mem_map.mp hinvocation
      split <;> exact h.invocations before hbefore
  | wait => exact ⟨h.pending, h.processing, h.statuses, h.memory, h.tick, h.invocations⟩

end Mentioned

/-! ## Calls whose files have different names -/

/-- No two calls are about jobs whose files have one name. -/
structure NamesApart (s : FileQueueState) : Prop where
  ids : Table.Distinct FileEnqueue.id s.enqueues
  files : ∀ call ∈ s.enqueues, ∀ other ∈ s.enqueues, filePath call.jobId = filePath other.jobId →
    call.id = other.id

/-- A job that is enqueued now has another file name than all that were before. -/
def NewName (s : FileQueueState) (event : FileQueueEvent) : Prop :=
  ∀ arguments, event.enqueues = some arguments → ∀ call ∈ s.enqueues,
    filePath call.jobId ≠ filePath arguments.jobId

section Names

variable {s : FileQueueState} {event : FileQueueEvent}

theorem NamesApart.eq_of_file (h : NamesApart s) {call other : FileEnqueue} (hcall : call ∈ s.enqueues)
    (hother : other ∈ s.enqueues) (hfile : filePath call.jobId = filePath other.jobId) : call = other := by
  have hlookup := Table.lookup_of_mem h.ids hcall
  rw [h.files call hcall other hother hfile, Table.lookup_of_mem h.ids hother] at hlookup
  exact (Option.some.inj hlookup).symm

theorem namesApart_step (h : NamesApart s) (hcrash : ∀ q, event ≠ .crash q) (hnew : NewName s event) :
    NamesApart (s.step event) := by
  rcases enqueues_step s event hcrash with
    hsame | ⟨id, queue, name, options, uuid, rfl, hlookup, hadded⟩ | ⟨id, call, rfl, hlookup, hadvanced⟩
  · exact ⟨hsame ▸ h.ids, hsame ▸ h.files⟩
  · have hfree := hnew { name, options, uuid } rfl
    constructor
    · rw [hadded]
      exact Table.distinct_upsert h.ids _
    · rw [hadded]
      intro call hcall other hother hfile
      rcases Table.mem_upsert hcall with rfl | hcall
      · rcases Table.mem_upsert hother with rfl | hother
        · rfl
        · exact absurd hfile.symm (hfree other hother)
      · rcases Table.mem_upsert hother with rfl | hother
        · exact absurd hfile (hfree call hcall)
        · exact h.files call hcall other hother hfile
  · have hcall := Table.mem_of_lookup hlookup
    constructor
    · rw [hadvanced]
      exact Table.distinct_upsert h.ids _
    · rw [hadvanced]
      intro first hfirst second hsecond hfile
      rcases Table.mem_upsert hfirst with rfl | hfirst
      · rcases Table.mem_upsert hsecond with rfl | hsecond
        · rfl
        · exact h.files call hcall second hsecond hfile
      · rcases Table.mem_upsert hsecond with rfl | hsecond
        · exact h.files first hfirst call hcall hfile
        · exact h.files first hfirst second hsecond hfile

/-- What is recorded under the file name of a call is what the call has recorded. -/
theorem NamesApart.recorded (h : NamesApart s) {call : FileEnqueue} (hcall : call ∈ s.enqueues)
    {jobId name : String} (hrecorded : s.Recorded jobId name) (hfile : filePath jobId = filePath call.jobId) :
    call.stage.recorded = true ∧ call.jobId = jobId ∧ call.name = name := by
  obtain ⟨other, hother, hstage, rfl, rfl⟩ := hrecorded
  cases h.eq_of_file hother hcall hfile
  exact ⟨hstage, rfl, rfl⟩

theorem NamesApart.separates (h : NamesApart s) : Separates s.Recorded := by
  rintro id name id' name' ⟨call, hcall, hstage, rfl, rfl⟩ hrecorded hfile
  exact (h.recorded hcall hrecorded hfile.symm).2.1

theorem recorded_advance (s : FileQueueState) {call : FileEnqueue}
    (h : call.stage = .passed ∨ call.stage.recorded = true) : (s.advanceEnqueue call).2.recorded = true := by
  unfold FileQueueState.advanceEnqueue
  cases hstage : call.stage with
  | passed | recording | writing | answered => rfl
  | called | probingPending | probingProcessing | refused =>
      rw [hstage] at h
      rcases h with h | h <;> cases h

/-- No call takes the job of another for its own: it answers only when its job is recorded. -/
theorem passed_of_recorded (hapart : NamesApart s) (hnamed : Named s) (hmentions : Mentions s.Recorded s)
    {call : FileEnqueue} (hcall : call ∈ s.enqueues) (hnot : call.stage.recorded = false)
    (h : (s.advanceEnqueue call).2.recorded = true) : call.stage = .passed := by
  have hfree : ∀ jobId name, s.Recorded jobId name → filePath jobId ≠ filePath call.jobId := by
    intro jobId name hrecorded hfile
    have hstage := (hapart.recorded hcall hrecorded hfile).1
    rw [hnot] at hstage
    cases hstage
  have hpending : s.pending.read (filePath call.jobId) = none := by
    cases hfile : s.pending.read (filePath call.jobId) with
    | none => rfl
    | some job =>
        have hlies : (s.view (filePath call.jobId)).Lies job := .pending hfile
        exact absurd (hnamed.file hlies) (hfree _ _ (hmentions.job_of_file (.inl hfile)))
  have hprocessing : s.processing.read (filePath call.jobId) = none := by
    cases hfile : s.processing.read (filePath call.jobId) with
    | none => rfl
    | some job =>
        have hlies : (s.view (filePath call.jobId)).Lies job := .processing hfile
        exact absurd (hnamed.file hlies) (hfree _ _ (hmentions.job_of_file (.inr hfile)))
  unfold FileQueueState.advanceEnqueue at h
  cases hstage : call.stage with
  | passed => rfl
  | called =>
      rw [hstage] at h
      dsimp only at h
      split at h
      · cases h
      · split at h
        · cases h
        · rename_i jobId hchecked
          have hnone := hmentions.getJob_eq_none (q := call.queue) hfree
          rw [jobId_of_checkedId hchecked] at hnone
          unfold FileQueueState.getJob at hnone
          dsimp only at h
          rw [hnone] at h
          cases h
  | probingPending =>
      rw [hstage] at h
      dsimp only at h
      rw [hpending] at h
      cases h
  | probingProcessing =>
      rw [hstage] at h
      dsimp only at h
      rw [hprocessing] at h
      cases h
  | refused =>
      rw [hstage] at h
      cases h
  | recording | writing | answered =>
      rw [hstage] at hnot
      cases hnot

theorem recorded_step (h : NamesApart s) (hcrash : ∀ q, event ≠ .crash q) {jobId name : String}
    (hrecorded : s.Recorded jobId name) : (s.step event).Recorded jobId name := by
  obtain ⟨call, hcall, hstage, hid, hname⟩ := hrecorded
  unfold FileQueueState.Recorded
  rcases enqueues_step s event hcrash with
    hsame | ⟨id, queue, other, options, uuid, rfl, hlookup, hadded⟩ | ⟨id, moving, rfl, hlookup, hadvanced⟩
  · rw [hsame]
    exact ⟨call, hcall, hstage, hid, hname⟩
  · rw [hadded]
    exact ⟨call, Table.mem_upsert_of_ne hcall (Table.lookup_eq_none.mp hlookup call hcall), hstage, hid, hname⟩
  · rw [hadvanced]
    by_cases hsame : call.id = moving.id
    · have hmoving := Table.lookup_of_mem h.ids hcall
      rw [hsame, Table.lookup_of_mem h.ids (Table.mem_of_lookup hlookup)] at hmoving
      cases Option.some.inj hmoving
      exact ⟨_, Table.mem_upsert_self _ _, recorded_advance s (.inr hstage), hid, hname⟩
    · exact ⟨call, Table.mem_upsert_of_ne hcall hsame, hstage, hid, hname⟩

end Names

/-! ## What every run keeps -/

/-- The status file of the call's job has been written. -/
def FileEnqueueStage.filed : FileEnqueueStage → Bool
  | writing _ _ | answered _ => true
  | _ => false

/-- When the job that the call has built is due. -/
def FileEnqueueStage.dueAt : FileEnqueueStage → Option Timestamp
  | recording _ availableAt | writing _ availableAt => some availableAt
  | _ => none

/-- The file names keep the calls apart; what is mentioned is recorded, and what is recorded is on file. -/
structure Sorted (s : FileQueueState) : Prop where
  apart : NamesApart s
  named : Named s
  built : AllBuilt s
  mentions : Mentions s.Recorded s
  filed : ∀ call ∈ s.enqueues, call.stage.filed = true → (s.statuses.file call.jobId).isSome = true
  due : ∀ call ∈ s.enqueues, ∀ availableAt, call.stage.dueAt = some availableAt → availableAt ≤ s.now

section Kept

variable {s : FileQueueState} {event : FileQueueEvent}

theorem step_advanceEnqueue {id : ℕ} {call : FileEnqueue}
    (hlookup : Table.lookup FileEnqueue.id id s.enqueues = some call) :
    s.step (.advanceEnqueue id) = { (s.advanceEnqueue call).1 with
      enqueues := Table.upsert FileEnqueue.id { call with stage := (s.advanceEnqueue call).2 } s.enqueues } := by
  unfold FileQueueState.step
  dsimp only
  rw [hlookup]

theorem file_persist_self (directory : StatusDirectory) (record : JobStatusRecord) :
    (directory.persist record).file record.jobId = some record := by
  unfold StatusDirectory.file StatusDirectory.persist
  rw [Table.lookup_upsert, if_pos rfl]
  rfl

theorem recorded_of_filed {stage : FileEnqueueStage} (h : stage.filed = true) : stage.recorded = true := by
  cases stage with
  | writing | answered => rfl
  | _ => cases h

/-- A call whose status file has been written had it written before or writes it now. -/
theorem filed_advance (hs : Sorted s) {call : FileEnqueue} (hcall : call ∈ s.enqueues)
    (h : (s.advanceEnqueue call).2.filed = true) :
    ((s.advanceEnqueue call).1.statuses.file call.jobId).isSome = true := by
  have hlater := (later_advanceEnqueue s call).statuses call.jobId
  have hpassed := passed_of_recorded hs.apart hs.named hs.mentions hcall
  cases hstage : call.stage with
  | writing | answered =>
      refine hlater (hs.filed call hcall ?_)
      rw [hstage]
      rfl
  | recording job availableAt =>
      obtain ⟨defaults, now, rfl⟩ := hs.built call hcall job availableAt (.inl hstage)
      unfold FileQueueState.advanceEnqueue
      rw [hstage]
      have hwritten := file_persist_self s.statuses
        (createJobStatus (createJob defaults call.name call.options call.uuid now) call.options.createdBy)
      exact Option.isSome_iff_exists.mpr ⟨_, hwritten⟩
  | passed =>
      unfold FileQueueState.advanceEnqueue at h
      rw [hstage] at h
      cases h
  | called | probingPending | probingProcessing | refused =>
      have hthis := hpassed (by rw [hstage]; rfl) (recorded_of_filed h)
      rw [hstage] at hthis
      cases hthis

theorem due_advance (hs : Sorted s) {call : FileEnqueue} (hcall : call ∈ s.enqueues) {availableAt : Timestamp}
    (h : (s.advanceEnqueue call).2.dueAt = some availableAt) : availableAt ≤ s.now := by
  unfold FileQueueState.advanceEnqueue at h
  cases hstage : call.stage with
  | passed =>
      rw [hstage] at h
      cases h
      exact le_rfl
  | recording job builtAt =>
      rw [hstage] at h
      cases h
      refine hs.due call hcall availableAt ?_
      rw [hstage]
      rfl
  | called =>
      rw [hstage] at h
      dsimp only at h
      split at h
      · cases h
      · split at h
        · cases h
        · dsimp only at h
          split at h <;> cases h
  | probingPending | probingProcessing =>
      rw [hstage] at h
      dsimp only at h
      split at h <;> cases h
  | writing | answered | refused =>
      rw [hstage] at h
      cases h

theorem mentions_recorded_step (hs : Sorted s) (hcrash : ∀ q, event ≠ .crash q) (hnew : NewName s event) :
    Mentions (s.step event).Recorded (s.step event) := by
  have hapart := namesApart_step hs.apart hcrash hnew
  refine mentions_step hapart.separates
    (hs.mentions.mono fun _ _ => recorded_step hs.apart hcrash) hs.built event ?_
  rintro id call rfl hlookup
  have hcall := Table.mem_of_lookup hlookup
  -- The call, as it stands after the step.
  have hmoved : { call with stage := (s.advanceEnqueue call).2 } ∈ (s.step (.advanceEnqueue id)).enqueues := by
    rw [step_advanceEnqueue hlookup]
    exact Table.mem_upsert_self _ _
  constructor
  · intro hstage jobId name hrecorded hfile
    have hnow := (hapart.recorded hmoved hrecorded hfile).1
    have hpassed := passed_of_recorded hs.apart hs.named hs.mentions hcall (by rw [hstage]; rfl) hnow
    rw [hstage] at hpassed
    cases hpassed
  · intro hstage
    exact ⟨_, hmoved, recorded_advance s hstage, rfl, rfl⟩

theorem sorted_step (hs : Sorted s) (hcrash : ∀ q, event ≠ .crash q) (hnew : NewName s event) :
    Sorted (s.step event) := by
  have hlater := later_step s event
  refine ⟨namesApart_step hs.apart hcrash hnew, named_step hs.named event, built_step hs.built event,
    mentions_recorded_step hs hcrash hnew, ?_, ?_⟩
  · intro call hcall hfiled
    rcases enqueues_step s event hcrash with
      hsame | ⟨id, queue, name, options, uuid, rfl, hlookup, hadded⟩ | ⟨id, moving, rfl, hlookup, hadvanced⟩
    · rw [hsame] at hcall
      exact hlater.statuses _ (hs.filed call hcall hfiled)
    · rw [hadded] at hcall
      rcases Table.mem_upsert hcall with rfl | hcall
      · cases hfiled
      · exact hlater.statuses _ (hs.filed call hcall hfiled)
    · rw [hadvanced] at hcall
      rcases Table.mem_upsert hcall with rfl | hcall
      · rw [step_advanceEnqueue hlookup]
        exact filed_advance hs (Table.mem_of_lookup hlookup) hfiled
      · exact hlater.statuses _ (hs.filed call hcall hfiled)
  · intro call hcall availableAt hdue
    refine le_trans ?_ hlater.now
    rcases enqueues_step s event hcrash with
      hsame | ⟨id, queue, name, options, uuid, rfl, hlookup, hadded⟩ | ⟨id, moving, rfl, hlookup, hadvanced⟩
    · rw [hsame] at hcall
      exact hs.due call hcall availableAt hdue
    · rw [hadded] at hcall
      rcases Table.mem_upsert hcall with rfl | hcall
      · cases hdue
      · exact hs.due call hcall availableAt hdue
    · rw [hadvanced] at hcall
      rcases Table.mem_upsert hcall with rfl | hcall
      · exact due_advance hs (Table.mem_of_lookup hlookup) hdue
      · exact hs.due call hcall availableAt hdue

/-- Every process has a record of an enqueued job with an id and a name, and it is of this job. -/
theorem Sorted.answers (hs : Sorted s) {call : FileEnqueue} (hcall : call ∈ s.enqueues)
    (hfiled : call.stage.filed = true) (hid : call.jobId ≠ "") (hname : call.name ≠ "") (q : ℕ) :
    ∃ record, s.getJob q call.jobId = some record ∧ record.jobId = call.jobId := by
  cases hget : s.getJob q call.jobId with
  | some record =>
      obtain ⟨hrecorded, hfile⟩ := hs.mentions.record_of_read hget
      exact ⟨record, rfl, (hs.apart.recorded hcall hrecorded hfile).2.1.symm⟩
  | none =>
      unfold FileQueueState.getJob at hget
      rw [get_answer, Option.or_eq_none_iff] at hget
      obtain ⟨record, hrecord⟩ := Option.isSome_iff_exists.mp (hs.filed call hcall hfiled)
      obtain ⟨file, hlookup, rfl⟩ := Option.map_eq_some_iff.mp hrecord
      obtain ⟨hrecorded, hfile⟩ := hs.mentions.statuses file (Table.mem_of_lookup hlookup)
      obtain ⟨-, hsameId, hsameName⟩ :=
        hs.apart.recorded hcall hrecorded (hfile.symm.trans (Table.key_of_lookup hlookup))
      -- The file can be read: it has an id and a type.
      have hread := hget.2
      unfold StatusDirectory.read at hread
      rw [hrecord, Option.filter_some, if_pos] at hread
      · cases hread
      · unfold JobStatusRecord.readable
        rw [← hsameId, ← hsameName]
        simp [hid, hname]

end Kept

end DealFlow360.Jobs
