import DealFlow360.Jobs.SoleWorker

/-!
# Distinct job ids

The files of a job and of its status are named by its id, in which several
characters become one. Jobs whose files have different names are kept apart:
whoever finds a file or a record under the name of a job finds this job. Two
jobs whose files have one name are not, although their ids are distinct.

What is found under the name of a job is the subject of the modules about names
and the worker; here it is put together for a whole run.

- `Sorted.job_of_file` and `mem_enqueues_of_run`: whatever has the file name of
  a call comes from a call of the run;
- `keepsApart_iff`: calls with distinct ids are kept apart in every run of
  theirs and the worker's if and only if the ids have different file names;
- `second_mail_skipped`: the two ids of one name, on the shortest run that
  shows it.

The safe form of an id counts UTF-16 units and is cut, so long ids can meet as
well.
-/

namespace DealFlow360.Jobs

namespace FileQueueState

/-- What `isIdle` takes for a job that the process has to run. -/
def isDue (s : FileQueueState) (q : ℕ) (job : FileJob) : Bool :=
  job.readable && decide (job.availableAt ≤ s.now) && decide (job.name ∈ (s.queues q).handlers)

/-- `isIdle`. A handler is in flight only during a tick. -/
def isIdle (s : FileQueueState) (q : ℕ) : Bool :=
  (s.queues q).tick.isNone && s.pending.all fun file => !s.isDue q file.job

/-- An invocation of the job's handler, whatever has come of it. -/
def HasRun (s : FileQueueState) (jobId name : String) : Prop :=
  ∃ invocation ∈ s.invocations, invocation.job.id = jobId ∧ invocation.job.name = name

/-- The job waits for its run in a file that will be taken for a job. -/
def Waits (s : FileQueueState) (jobId name : String) : Prop :=
  ∃ job, (s.pending.read (filePath jobId) = some job ∨ s.processing.read (filePath jobId) = some job) ∧
    job.id = jobId ∧ job.name = name ∧ job.readable = true

/-- No job stands in for another. -/
structure KeepsApart (s : FileQueueState) (worker : ℕ) : Prop where
  /-- What lies under the name of a job is this job. -/
  files : ∀ call ∈ s.enqueues, ∀ job, s.pending.read (filePath call.jobId) = some job ∨
    s.processing.read (filePath call.jobId) = some job → job.id = call.jobId
  /-- The status file of a job is its own. -/
  statuses : ∀ call ∈ s.enqueues, ∀ record, s.statuses.file call.jobId = some record →
    record.jobId = call.jobId
  /-- Every process answers for an enqueued job by a record of this job. -/
  answers : ∀ call ∈ s.enqueues, ∀ jobId, call.stage = .answered jobId → ∀ q,
    ∃ record, s.getJob q call.jobId = some record ∧ record.jobId = call.jobId
  /-- An enqueued job is never lost before its handler was called. -/
  kept : ∀ call ∈ s.enqueues, ∀ jobId, call.stage = .answered jobId →
    s.HasRun call.jobId call.name ∨ s.Waits call.jobId call.name
  /-- Once the worker is idle, the handler of every enqueued job has been called. -/
  run : ∀ call ∈ s.enqueues, ∀ jobId, call.stage = .answered jobId →
    call.name ∈ (s.queues worker).handlers → s.isIdle worker = true → s.HasRun call.jobId call.name

end FileQueueState

/-! ## Runs -/

/-- What a run of calls whose files have different names keeps. -/
structure Steady (s : FileQueueState) (worker : ℕ) : Prop where
  sorted : Sorted s
  sole : s.SoleWorker worker
  orderly : ∀ file, (s.view file).Orderly worker s.now (s.RanFile file)
  stored : ∀ call ∈ s.enqueues, ∀ jobId, call.stage = .answered jobId →
    s.RanFile (filePath call.jobId) ∨ (s.view (filePath call.jobId)).Stored
  /-- The queue takes a file for a job, and a record for a status, only with an id and a name. -/
  readable : ∀ call ∈ s.enqueues, call.jobId ≠ "" ∧ call.name ≠ ""

/-- The id and the name of a job that is enqueued now are not empty. -/
def Readable (event : FileQueueEvent) : Prop :=
  ∀ arguments, event.enqueues = some arguments → arguments.jobId ≠ "" ∧ arguments.name ≠ ""

section Runs

variable {s : FileQueueState} {event : FileQueueEvent} {worker : ℕ}

theorem readable_of_recorded (hreadable : ∀ call ∈ s.enqueues, call.jobId ≠ "" ∧ call.name ≠ "") {job : FileJob}
    (h : s.Recorded job.id job.name) : job.readable = true := by
  obtain ⟨call, hcall, -, hid, hname⟩ := h
  obtain ⟨hnotId, hnotName⟩ := hreadable call hcall
  rw [hid] at hnotId
  rw [hname] at hnotName
  simp [FileJob.readable, hnotId, hnotName]

theorem dueAt_le (hs : Sorted s) {availableAt : Timestamp} (h : s.dueAt event = some availableAt) :
    availableAt ≤ s.now := by
  unfold FileQueueState.dueAt at h
  split at h
  · obtain ⟨call, hlookup, hstage⟩ := Option.bind_eq_some_iff.mp h
    refine hs.due call (Table.mem_of_lookup hlookup) availableAt ?_
    split at hstage
    · rename_i hwriting
      rw [hwriting]
      exact hstage
    · cases hstage
  · cases h

theorem pending_advance {call : FileEnqueue} {job : JobRecord} {availableAt : Timestamp}
    (hstage : call.stage = .writing job availableAt) : (s.advanceEnqueue call).1.pending =
      s.pending.write (filePath job.id) { job with availableAt, serial := s.nextSerial } := by
  unfold FileQueueState.advanceEnqueue
  rw [hstage]
  exact (sameFiles_ensureTimer _ call.queue).pending

/-- A call that answers has its job in `pending`, or had answered before. -/
theorem stored_advance (hs : Sorted s) {id : ℕ} {call : FileEnqueue}
    (hlookup : Table.lookup FileEnqueue.id id s.enqueues = some call) {jobId : String}
    (h : (s.advanceEnqueue call).2 = .answered jobId) :
    ((s.step (.advanceEnqueue id)).view (filePath call.jobId)).Stored ∨
      ∃ answer, call.stage = .answered answer := by
  have hcall := Table.mem_of_lookup hlookup
  have hpassed := passed_of_recorded hs.apart hs.named hs.mentions hcall
  rw [h] at hpassed
  cases hstage : call.stage with
  | answered answer => exact .inr ⟨answer, rfl⟩
  | writing job availableAt =>
      refine .inl ?_
      obtain ⟨defaults, now, rfl⟩ := hs.built call hcall job availableAt (.inr hstage)
      have hpending := pending_advance (s := s) hstage
      have hread := JobDirectory.read_write s.pending (filePath call.jobId)
        { createJob defaults call.name call.options call.uuid now with availableAt, serial := s.nextSerial }
        (filePath call.jobId)
      rw [if_pos rfl] at hread
      refine ⟨_, .inl (Eq.trans ?_ hread)⟩
      show JobDirectory.read (s.step (.advanceEnqueue id)).pending _ = _
      rw [step_advanceEnqueue hlookup]
      exact congrArg (JobDirectory.read · (filePath call.jobId)) hpending
  | passed =>
      unfold FileQueueState.advanceEnqueue at h
      rw [hstage] at h
      cases h
  | recording =>
      unfold FileQueueState.advanceEnqueue at h
      rw [hstage] at h
      cases h
  | called | probingPending | probingProcessing | refused =>
      have hthis := hpassed (by rw [hstage]; rfl) rfl
      rw [hstage] at hthis
      cases hthis

theorem steady_step (h : Steady s worker) (hordinary : event.ordinary worker = true) (hnew : NewName s event)
    (hreadable : Readable event) : Steady (s.step event) worker := by
  have hcrash : ∀ q, event ≠ .crash q := by
    rintro q rfl
    cases hordinary
  have hmoved := moved s event
  have hsole {s : FileQueueState} (hs : s.SoleWorker worker) (file : String) (q : ℕ) (hq : q ≠ worker) :
      (s.view file).holders q = none := by
    show phaseOf file (s.holds q) = none
    rw [hs.holds hq]
    rfl
  have hsole' := soleWorker_step h.sole hordinary
  have hsteady (file : String) (hstored : s.RanFile file ∨ (s.view file).Stored) :
      (s.step event).RanFile file ∨ ((s.step event).view file).Stored := by
    rcases hstored with hran | hstored
    · exact .inl (ranFile_of_moved hmoved hran)
    · exact (stored_of_turned hcrash (turned h.sorted.named hmoved file) (h.orderly file) (hsole h.sole file)
        hstored).imp_left (ranFile_of_moved hmoved)
  refine ⟨sorted_step h.sorted hcrash hnew, hsole', fun file => ?_, ?_, ?_⟩
  · exact orderly_of_turned h.sorted.named hcrash (turned h.sorted.named hmoved file) (h.orderly file)
      (later_step s event).now (ranFile_of_moved hmoved) (hsole h.sole file) (hsole hsole' file)
      (fun job hjob => readable_of_recorded h.readable (h.sorted.mentions.job_of_file (.inr hjob)))
      (fun availableAt hat => dueAt_le h.sorted hat)
  · intro call hcall jobId hstage
    rcases enqueues_step s event hcrash with
      hsame | ⟨id, queue, name, options, uuid, rfl, hlookup, hadded⟩ | ⟨id, moving, rfl, hlookup, hadvanced⟩
    · rw [hsame] at hcall
      exact hsteady _ (h.stored call hcall jobId hstage)
    · rw [hadded] at hcall
      rcases Table.mem_upsert hcall with rfl | hcall
      · cases hstage
      · exact hsteady _ (h.stored call hcall jobId hstage)
    · rw [hadvanced] at hcall
      rcases Table.mem_upsert hcall with rfl | hcall
      · rcases stored_advance h.sorted hlookup hstage with hstored | ⟨answer, hanswered⟩
        · exact .inr hstored
        · exact hsteady _ (h.stored moving (Table.mem_of_lookup hlookup) answer hanswered)
      · exact hsteady _ (h.stored call hcall jobId hstage)
  · intro call hcall
    rcases enqueues_step s event hcrash with
      hsame | ⟨id, queue, name, options, uuid, rfl, hlookup, hadded⟩ | ⟨id, moving, rfl, hlookup, hadvanced⟩
    · rw [hsame] at hcall
      exact h.readable call hcall
    · rw [hadded] at hcall
      rcases Table.mem_upsert hcall with rfl | hcall
      · exact hreadable _ rfl
      · exact h.readable call hcall
    · rw [hadvanced] at hcall
      rcases Table.mem_upsert hcall with rfl | hcall
      · exact h.readable moving (Table.mem_of_lookup hlookup)
      · exact h.readable call hcall

/-- Under the file name of a call there is nothing but its job. -/
theorem Sorted.job_of_file (hs : Sorted s) {call : FileEnqueue} (hcall : call ∈ s.enqueues) {job : FileJob}
    (hfile : (s.view (filePath call.jobId)).pending = some job ∨
      (s.view (filePath call.jobId)).processing = some job) : call.jobId = job.id ∧ call.name = job.name := by
  have hname : filePath job.id = filePath call.jobId := by
    rcases hfile with hpending | hprocessing
    · exact hs.named.file (.pending hpending)
    · exact hs.named.file (.processing hprocessing)
  exact (hs.apart.recorded hcall (hs.mentions.job_of_file hfile) hname).2

theorem keepsApart_of_steady (h : Steady s worker) : s.KeepsApart worker := by
  have hran {call : FileEnqueue} (hcall : call ∈ s.enqueues) (hran : s.RanFile (filePath call.jobId)) :
      s.HasRun call.jobId call.name := by
    obtain ⟨i, hi, hfile⟩ := hran
    obtain ⟨-, hid, hname⟩ := h.sorted.apart.recorded hcall (h.sorted.mentions.invocations i hi) hfile
    exact ⟨i, hi, hid.symm, hname.symm⟩
  have hready {job : FileJob} {file : String}
      (hfile : (s.view file).pending = some job ∨ (s.view file).processing = some job) : job.readable = true :=
    readable_of_recorded h.readable (h.sorted.mentions.job_of_file hfile)
  constructor
  · intro call hcall job hjob
    exact (h.sorted.job_of_file hcall hjob).1.symm
  · intro call hcall record hrecord
    obtain ⟨file, hlookup, rfl⟩ := Option.map_eq_some_iff.mp hrecord
    obtain ⟨hrecorded, hname⟩ := h.sorted.mentions.statuses file (Table.mem_of_lookup hlookup)
    exact (h.sorted.apart.recorded hcall hrecorded (hname.symm.trans (Table.key_of_lookup hlookup))).2.1.symm
  · intro call hcall jobId hstage q
    obtain ⟨hid, hname⟩ := h.readable call hcall
    exact h.sorted.answers hcall (by rw [hstage]; rfl) hid hname q
  · intro call hcall jobId hstage
    rcases h.stored call hcall jobId hstage with hfile | ⟨job, hjob⟩
    · exact .inl (hran hcall hfile)
    · obtain ⟨hid, hname⟩ := h.sorted.job_of_file hcall hjob
      exact .inr ⟨job, hjob, hid.symm, hname.symm, hready hjob⟩
  · intro call hcall jobId hstage hhandled hidle
    obtain ⟨htick, hnone⟩ := Bool.and_eq_true_iff.mp hidle
    rw [Option.isNone_iff_eq_none] at htick
    rcases h.stored call hcall jobId hstage with hfile | ⟨job, hjob⟩
    · exact hran hcall hfile
    · rcases (h.orderly (filePath call.jobId)).due job hjob with hfile | hdue
      · exact hran hcall hfile
      · rcases hjob with hpending | hprocessing
        · -- A job that is due and has a handler: the worker is not idle.
          obtain ⟨entry, hentry, -, hentryJob⟩ := mem_of_read hpending
          have hnot := List.all_eq_true.mp hnone entry hentry
          have hname := (h.sorted.job_of_file hcall (.inl hpending)).2
          rw [hentryJob] at hnot
          unfold FileQueueState.isDue at hnot
          rw [hready (.inl hpending), ← hname] at hnot
          simp [hdue, hhandled] at hnot
        · obtain ⟨phase, hheld⟩ := (h.orderly (filePath call.jobId)).held job hprocessing
          have hholds := holders_eq_some.mp hheld
          rw [holds_of_tick htick] at hholds
          cases hholds

/-- Every call of a run is one that the run has made. -/
theorem mem_enqueues_of_run (hstart : s.enqueues = []) {events : List FileQueueEvent}
    (hordinary : ∀ event ∈ events, event.ordinary worker = true) :
    ∀ call ∈ (s.run events).enqueues, ∃ arguments ∈ events.filterMap FileQueueEvent.enqueues,
      arguments.jobId = call.jobId := by
  induction events using List.reverseRecOn with
  | nil =>
      intro call hcall
      rw [FileQueueState.run, Machine.run_nil, hstart] at hcall
      cases hcall
  | append_singleton events event ih =>
      have hearlier := ih fun earlier hmem => hordinary earlier (List.mem_append_left _ hmem)
      have hcrash : ∀ q, event ≠ .crash q := by
        rintro q rfl
        have hnot := hordinary (.crash q) (List.mem_append_right _ (List.mem_singleton_self _))
        cases hnot
      have hkeep {call : FileEnqueue} (hcall : call ∈ (s.run events).enqueues) :
          ∃ arguments ∈ (events ++ [event]).filterMap FileQueueEvent.enqueues,
            arguments.jobId = call.jobId := by
        obtain ⟨arguments, hmem, hid⟩ := hearlier call hcall
        refine ⟨arguments, ?_, hid⟩
        rw [List.filterMap_append]
        exact List.mem_append_left _ hmem
      intro call hcall
      rw [FileQueueState.run, Machine.run_concat] at hcall
      rcases enqueues_step (s.run events) event hcrash with
        hsame | ⟨id, queue, name, options, uuid, rfl, -, hadded⟩ | ⟨id, moving, rfl, hlookup, hadvanced⟩
      · rw [hsame] at hcall
        exact hkeep hcall
      · rw [hadded] at hcall
        rcases Table.mem_upsert hcall with rfl | hcall
        · refine ⟨{ name, options, uuid }, ?_, rfl⟩
          rw [List.filterMap_append]
          exact List.mem_append_right _ (List.mem_singleton_self _)
        · exact hkeep hcall
      · rw [hadvanced] at hcall
        rcases Table.mem_upsert hcall with rfl | hcall
        · have hmoving := hkeep (Table.mem_of_lookup hlookup)
          exact hmoving
        · exact hkeep hcall

/-- Where the calls have different file names, each one's is new when it is made. -/
theorem meets_newName (hstart : s.enqueues = []) {events : List FileQueueEvent}
    (hordinary : ∀ event ∈ events, event.ordinary worker = true)
    (hnames : ((events.filterMap FileQueueEvent.enqueues).map fun arguments =>
      filePath arguments.jobId).Nodup) :
    Machine.Meets FileQueueState.step (fun s event => event.ordinary worker = true ∧ NewName s event) s
      events := by
  refine Machine.meets_iff.mpr ?_
  rintro first event rest rfl
  refine ⟨hordinary event (by simp), fun arguments henqueues call hcall hfile => ?_⟩
  obtain ⟨earlier, hearlier, hid⟩ := mem_enqueues_of_run hstart
    (fun event hevent => hordinary event (List.mem_append_left _ hevent)) call hcall
  rw [List.filterMap_append, List.filterMap_cons, henqueues, List.map_append, List.map_cons,
    List.nodup_append] at hnames
  refine hnames.2.2 _ (List.mem_map_of_mem hearlier) _ List.mem_cons_self ?_
  rw [hid]
  exact hfile

theorem sorted_of_fresh (h : s.Fresh) : Sorted s := by
  have hnone {call : FileEnqueue} : call ∉ s.enqueues := by
    rw [h.enqueues]
    exact List.not_mem_nil
  refine ⟨⟨?_, fun call hcall => absurd hcall hnone⟩, named_of_fresh h, built_of_fresh h, ⟨?_, ?_, ?_, ?_, ?_, ?_⟩,
    fun call hcall => absurd hcall hnone, fun call hcall => absurd hcall hnone⟩
  · rw [h.enqueues]
    exact List.nodup_nil
  · rw [h.pending]
    exact List.forall_mem_nil _
  · rw [h.processing]
    exact List.forall_mem_nil _
  · rw [h.statuses]
    exact List.forall_mem_nil _
  · intro q
    rw [(h.idle q).2]
    exact List.forall_mem_nil _
  · intro q file stage files htick
    rw [(h.idle q).1] at htick
    cases htick
  · rw [h.invocations]
    exact List.forall_mem_nil _

theorem steady_of_fresh (h : s.Fresh) (hsole : s.SoleWorker worker) : Steady s worker := by
  have hnone {call : FileEnqueue} : call ∉ s.enqueues := by
    rw [h.enqueues]
    exact List.not_mem_nil
  refine ⟨sorted_of_fresh h, hsole, fun file => ?_, fun call hcall => absurd hcall hnone,
    fun call hcall => absurd hcall hnone⟩
  rw [view_of_fresh h]
  constructor
  · intro job hjob
    cases hjob
  · intro _
    rfl
  · intro phase hphase
    cases hphase
  · rintro job (hjob | hjob) <;> cases hjob

theorem sorted_run (h : Sorted s) {events : List FileQueueEvent}
    (hmeets : Machine.Meets FileQueueState.step
      (fun s event => event.ordinary worker = true ∧ NewName s event) s events) : Sorted (s.run events) := by
  refine Machine.invariant_of_meets (fun s event hs hevent => ?_) h hmeets
  refine sorted_step hs ?_ hevent.2
  rintro q rfl
  have hnot := hevent.1
  cases hnot

theorem steady_run (h : Steady s worker) {events : List FileQueueEvent}
    (hmeets : Machine.Meets FileQueueState.step
      (fun s event => event.ordinary worker = true ∧ NewName s event) s events)
    (hreadable : ∀ event ∈ events, Readable event) : Steady (s.run events) worker := by
  have hboth := Machine.meets_and.mpr
    ⟨hmeets, Machine.meets_of_forall (C := fun _ event => Readable event)
      (fun event hevent _ => hreadable event hevent) s⟩
  exact Machine.invariant_of_meets (I := (Steady · worker))
    (fun _ _ hs hevent => steady_step hs hevent.1.1 hevent.1.2 hevent.2) h hboth

end Runs

/-! ## Where two names are one -/

/-- How many steps the call has at most before it answers. -/
def FileEnqueueStage.left : FileEnqueueStage → ℕ
  | called => 6
  | probingPending => 5
  | probingProcessing => 4
  | passed => 3
  | recording _ _ => 2
  | writing _ _ => 1
  | answered _ => 0
  | refused => 7

/-- A call to the worker with all of its steps. -/
def enqueueWhole (worker id : ℕ) (arguments : EnqueueArguments) : List FileQueueEvent :=
  .enqueue id worker arguments.name arguments.options arguments.uuid ::
    List.replicate 6 (.advanceEnqueue id)

/-- The calls one after the other, numbered from `id`. -/
def enqueueAll (worker : ℕ) : ℕ → List EnqueueArguments → List FileQueueEvent
  | _, [] => []
  | id, arguments :: rest => enqueueWhole worker id arguments ++ enqueueAll worker (id + 1) rest

/-- The worker is open, no other process remembers a status, and the numbers from `next` on are unused. -/
structure Accepting (s : FileQueueState) (worker next : ℕ) : Prop where
  opened : (s.queues worker).closed = false
  others : ∀ q, q ≠ worker → (s.queues q).statuses.memory = []
  unused : ∀ call ∈ s.enqueues, call.id < next

/-- The call of the number has these arguments, and at most `n` steps before it. -/
def Stands (s : FileQueueState) (worker id : ℕ) (arguments : EnqueueArguments) (n : ℕ) : Prop :=
  ∃ call, Table.lookup FileEnqueue.id id s.enqueues = some call ∧ call.queue = worker ∧
    call.jobId = arguments.jobId ∧ call.name = arguments.name ∧ call.stage.left ≤ n

section OneName

variable {s : FileQueueState} {worker id : ℕ} {arguments : EnqueueArguments}

theorem left_advance {call : FileEnqueue} (hopen : (s.queues call.queue).closed = false) {n : ℕ} (hn : n < 6)
    (h : call.stage.left ≤ n + 1) : (s.advanceEnqueue call).2.left ≤ n := by
  unfold FileQueueState.advanceEnqueue
  cases hstage : call.stage with
  | called =>
      rw [hstage] at h
      simp only [FileEnqueueStage.left] at h
      dsimp only
      rw [hopen]
      split
      · rename_i hclosed
        cases hclosed
      · split
        · exact le_trans (by decide : 3 ≤ 5) (Nat.le_of_succ_le_succ h)
        · dsimp only
          split
          · exact Nat.zero_le n
          · exact Nat.le_of_succ_le_succ h
  | probingPending | probingProcessing =>
      rw [hstage] at h
      dsimp only
      split
      · exact Nat.zero_le n
      · exact Nat.le_of_succ_le_succ h
  | passed | recording | writing =>
      rw [hstage] at h
      exact Nat.le_of_succ_le_succ h
  | answered => exact Nat.zero_le n
  | refused =>
      rw [hstage] at h
      exact absurd hn (Nat.not_lt.mpr (Nat.le_of_succ_le_succ h))

theorem queues_ensureTimer (s : FileQueueState) (q : ℕ) : (s.ensureTimer q).queues = s.queues := by
  unfold FileQueueState.ensureTimer
  dsimp only
  split <;> rfl

/-- A step of a call changes its own process only, and does not close it. -/
theorem queues_advance (s : FileQueueState) (call : FileEnqueue) :
    (∀ q, q ≠ call.queue → (s.advanceEnqueue call).1.queues q = s.queues q) ∧
      ((s.advanceEnqueue call).1.queues call.queue).closed = (s.queues call.queue).closed := by
  have hset (f : FileJobQueue → FileJobQueue) (hf : (f (s.queues call.queue)).closed = (s.queues call.queue).closed) :
      (∀ q, q ≠ call.queue → (s.setQueue call.queue f).queues q = s.queues q) ∧
        ((s.setQueue call.queue f).queues call.queue).closed = (s.queues call.queue).closed := by
    refine ⟨fun q hq => setQueue_of_ne hq s f, ?_⟩
    rw [setQueue_self]
    exact hf
  unfold FileQueueState.advanceEnqueue
  cases call.stage with
  | called =>
      dsimp only
      split
      · exact ⟨fun _ _ => rfl, rfl⟩
      · split
        · exact ⟨fun _ _ => rfl, rfl⟩
        · dsimp only
          refine hset _ ?_
          rfl
  | passed =>
      dsimp only
      refine hset _ ?_
      rfl
  | writing job availableAt =>
      dsimp only
      rw [queues_ensureTimer]
      exact ⟨fun _ _ => rfl, rfl⟩
  | _ => exact ⟨fun _ _ => rfl, rfl⟩

theorem stands_advance (hs : Accepting s worker (id + 1)) {n : ℕ} (hn : n < 6)
    (h : Stands s worker id arguments (n + 1)) :
    Accepting (s.step (.advanceEnqueue id)) worker (id + 1) ∧
      Stands (s.step (.advanceEnqueue id)) worker id arguments n ∧
      ∀ call ∈ s.enqueues, call.id ≠ id → call ∈ (s.step (.advanceEnqueue id)).enqueues := by
  obtain ⟨call, hlookup, rfl, hid, hname, hleft⟩ := h
  obtain ⟨hothers, hclosed⟩ := queues_advance s call
  have hkey := Table.key_of_lookup hlookup
  rw [step_advanceEnqueue hlookup]
  refine ⟨⟨?_, ?_, ?_⟩, ⟨{ call with stage := (s.advanceEnqueue call).2 }, ?_, rfl, hid, hname, ?_⟩, ?_⟩
  · exact hclosed.trans hs.opened
  · intro q hq
    show ((s.advanceEnqueue call).1.queues q).statuses.memory = []
    rw [hothers q hq]
    exact hs.others q hq
  · intro other hother
    rcases Table.mem_upsert hother with rfl | hother
    · exact hs.unused call (Table.mem_of_lookup hlookup)
    · exact hs.unused other hother
  · rw [Table.lookup_upsert]
    exact if_pos hkey
  · exact left_advance hs.opened hn hleft
  · intro other hother hne
    refine Table.mem_upsert_of_ne hother ?_
    rw [← hkey] at hne
    exact hne

/-- After all of its steps the call has answered. -/
theorem stands_replicate {n : ℕ} (hn : n ≤ 6) (hs : Accepting s worker (id + 1)) (h : Stands s worker id arguments n) :
    Accepting (s.run (List.replicate n (.advanceEnqueue id))) worker (id + 1) ∧
      Stands (s.run (List.replicate n (.advanceEnqueue id))) worker id arguments 0 ∧
      ∀ call ∈ s.enqueues, call.id ≠ id → call ∈ (s.run (List.replicate n (.advanceEnqueue id))).enqueues := by
  induction n generalizing s with
  | zero => exact ⟨hs, h, fun call hcall _ => hcall⟩
  | succ n ih =>
      obtain ⟨haccepting, hstands, hkept⟩ := stands_advance hs hn h
      obtain ⟨hlast, hanswered, hrest⟩ := ih (Nat.le_of_succ_le hn) haccepting hstands
      exact ⟨hlast, hanswered, fun call hcall hne => hrest call (hkept call hcall hne) hne⟩

theorem answered_enqueueWhole (hs : Accepting s worker id) (arguments : EnqueueArguments) :
    Accepting (s.run (enqueueWhole worker id arguments)) worker (id + 1) ∧
      Stands (s.run (enqueueWhole worker id arguments)) worker id arguments 0 ∧
      ∀ call ∈ s.enqueues, call ∈ (s.run (enqueueWhole worker id arguments)).enqueues := by
  have hnone : Table.lookup FileEnqueue.id id s.enqueues = none :=
    Table.lookup_eq_none.mpr fun call hcall => (hs.unused call hcall).ne
  have hstep : s.step (.enqueue id worker arguments.name arguments.options arguments.uuid) =
      { s with
        enqueues := Table.upsert FileEnqueue.id
          { id, queue := worker, name := arguments.name, options := arguments.options, uuid := arguments.uuid }
          s.enqueues } := by
    unfold FileQueueState.step
    dsimp only
    rw [hnone]
  have hcalled : Accepting (s.step (.enqueue id worker arguments.name arguments.options arguments.uuid)) worker
      (id + 1) := by
    rw [hstep]
    refine ⟨hs.opened, hs.others, fun call hcall => ?_⟩
    rcases Table.mem_upsert hcall with rfl | hcall
    · exact Nat.lt_succ_self id
    · exact Nat.lt_succ_of_lt (hs.unused call hcall)
  have hstands : Stands (s.step (.enqueue id worker arguments.name arguments.options arguments.uuid)) worker id
      arguments 6 := by
    rw [hstep]
    refine ⟨{ id, queue := worker, name := arguments.name, options := arguments.options, uuid := arguments.uuid },
      ?_, rfl, rfl, rfl, le_rfl⟩
    dsimp only
    rw [Table.lookup_upsert]
    exact if_pos rfl
  obtain ⟨hlast, hanswered, hrest⟩ := stands_replicate le_rfl hcalled hstands
  have hrun : s.run (enqueueWhole worker id arguments) =
      (s.step (.enqueue id worker arguments.name arguments.options arguments.uuid)).run
        (List.replicate 6 (.advanceEnqueue id)) :=
    Machine.run_cons s _ _
  rw [hrun]
  refine ⟨hlast, hanswered, fun call hcall => hrest call ?_ (hs.unused call hcall).ne⟩
  rw [hstep]
  exact Table.mem_upsert_of_ne hcall (hs.unused call hcall).ne

theorem answered_enqueueAll (calls : List EnqueueArguments) (hs : Accepting s worker id) :
    (∀ q, q ≠ worker → ((s.run (enqueueAll worker id calls)).queues q).statuses.memory = []) ∧
      (∀ call ∈ s.enqueues, call ∈ (s.run (enqueueAll worker id calls)).enqueues) ∧
      ∀ arguments ∈ calls, ∃ call ∈ (s.run (enqueueAll worker id calls)).enqueues,
        call.jobId = arguments.jobId ∧ call.name = arguments.name ∧ ∃ jobId, call.stage = .answered jobId := by
  induction calls generalizing s id with
  | nil =>
      exact ⟨hs.others, fun call hcall => hcall, fun arguments harguments => absurd harguments List.not_mem_nil⟩
  | cons first rest ih =>
      obtain ⟨haccepting, ⟨call, hlookup, -, hid, hname, hleft⟩, hkept⟩ := answered_enqueueWhole hs first
      obtain ⟨hothers, hearlier, hrest⟩ := ih haccepting
      have hrun : s.run (enqueueAll worker id (first :: rest)) =
          (s.run (enqueueWhole worker id first)).run (enqueueAll worker (id + 1) rest) :=
        Machine.run_append s _ _
      rw [hrun]
      refine ⟨hothers, fun other hother => hearlier other (hkept other hother), fun arguments harguments => ?_⟩
      rcases List.mem_cons.mp harguments with rfl | harguments
      · refine ⟨call, hearlier call (Table.mem_of_lookup hlookup), hid, hname, ?_⟩
        cases hstage : call.stage with
        | answered jobId => exact ⟨jobId, rfl⟩
        | _ =>
            rw [hstage] at hleft
            cases hleft
      · exact hrest arguments harguments

theorem enqueues_enqueueAll (worker id : ℕ) (calls : List EnqueueArguments) :
    (enqueueAll worker id calls).filterMap FileQueueEvent.enqueues = calls := by
  induction calls generalizing id with
  | nil => rfl
  | cons first rest ih =>
      unfold enqueueAll enqueueWhole
      rw [List.filterMap_append, ih]
      rfl

theorem ordinary_enqueueAll (worker id : ℕ) (calls : List EnqueueArguments) :
    ∀ event ∈ enqueueAll worker id calls, event.ordinary worker = true := by
  induction calls generalizing id with
  | nil => exact fun event hevent => absurd hevent List.not_mem_nil
  | cons first rest ih =>
      intro event hevent
      rcases List.mem_append.mp hevent with hevent | hevent
      · rcases List.mem_cons.mp hevent with rfl | hevent
        · rfl
        · rw [List.eq_of_mem_replicate hevent]
          rfl
      · exact ih (id + 1) event hevent

/-- A process that remembers nothing answers by the status file. -/
theorem getJob_of_no_memory {q : ℕ} (h : (s.queues q).statuses.memory = []) (jobId : String) :
    s.getJob q jobId = s.statuses.read jobId := by
  unfold FileQueueState.getJob
  rw [get_answer]
  have hcached : (s.queues q).statuses.cached jobId = none := by
    unfold JobStatusTracker.cached
    rw [h]
    rfl
  rw [hcached, Option.none_or]

end OneName

/-- However their steps and those of the worker interleave, calls with distinct job ids are kept apart in every run
if and only if their files have different names and none has an empty id or name: every process then answers
for each of them by a record of its own job, its job is never lost, and once the worker is idle its handler
has been called. -/
theorem keepsApart_iff (worker : ℕ) (calls : List EnqueueArguments)
    (hids : (calls.map EnqueueArguments.jobId).Nodup) :
    (∀ (s : FileQueueState) (events : List FileQueueEvent), s.Fresh → s.SoleWorker worker →
        (∀ event ∈ events, event.ordinary worker = true) →
        events.filterMap FileQueueEvent.enqueues <+: calls → (s.run events).KeepsApart worker) ↔
      (calls.map fun arguments => filePath arguments.jobId).Nodup ∧
        ∀ arguments ∈ calls, arguments.jobId ≠ "" ∧ arguments.name ≠ "" := by
  constructor
  · intro h
    have hempty : FileQueueState.Fresh {} :=
      ⟨rfl, rfl, rfl, fun _ => ⟨rfl, rfl⟩, rfl, rfl, rfl⟩
    have hsole : FileQueueState.SoleWorker {} worker :=
      ⟨fun _ _ => ⟨rfl, rfl, rfl⟩, List.forall_mem_nil _⟩
    have hordinary := ordinary_enqueueAll worker 0 calls
    have hcalls := enqueues_enqueueAll worker 0 calls
    have hapart := h {} (enqueueAll worker 0 calls) hempty hsole hordinary
      ⟨[], by rw [List.append_nil, hcalls]⟩
    obtain ⟨hothers, -, hanswered⟩ := @answered_enqueueAll {} worker 0 calls
      ⟨rfl, fun _ _ => rfl, List.forall_mem_nil _⟩
    -- Another process reads the status file, which it takes for the job's record.
    have hread {arguments : EnqueueArguments} (harguments : arguments ∈ calls) : ∃ record,
        (FileQueueState.run {} (enqueueAll worker 0 calls)).statuses.file arguments.jobId = some record ∧
          record.readable = true ∧ record.jobId = arguments.jobId := by
      obtain ⟨call, hcall, hid, -, jobId, hstage⟩ := hanswered arguments harguments
      obtain ⟨record, hget, hrecord⟩ := hapart.answers call hcall jobId hstage (worker + 1)
      rw [getJob_of_no_memory (hothers _ (Nat.succ_ne_self worker)), hid] at hget
      obtain ⟨hfile, hreadable⟩ := Option.filter_eq_some_iff.mp hget
      exact ⟨record, hfile, hreadable, hrecord.trans hid⟩
    have hnames : (calls.map fun arguments => filePath arguments.jobId).Nodup := by
      have hinjective : ∀ arguments ∈ calls, ∀ other ∈ calls,
          filePath arguments.jobId = filePath other.jobId → arguments.jobId = other.jobId := by
        intro arguments harguments other hother hfile
        obtain ⟨record, hrecord, -, hid⟩ := hread harguments
        obtain ⟨record', hrecord', -, hid'⟩ := hread hother
        unfold StatusDirectory.file at hrecord hrecord'
        rw [hfile, hrecord'] at hrecord
        rw [← hid, ← hid', Option.some.inj hrecord]
      have hmapped := hids.map_on (f := filePath) fun id hid id' hid' => by
        obtain ⟨arguments, harguments, rfl⟩ := List.mem_map.mp hid
        obtain ⟨other, hother, rfl⟩ := List.mem_map.mp hid'
        exact hinjective arguments harguments other hother
      rw [List.map_map] at hmapped
      exact hmapped
    refine ⟨hnames, fun arguments harguments => ?_⟩
    obtain ⟨record, hrecord, hreadable, hid⟩ := hread harguments
    obtain ⟨hnotId, hnotType⟩ := Bool.and_eq_true_iff.mp hreadable
    have hsorted := sorted_run (sorted_of_fresh hempty)
      (@meets_newName {} worker rfl _ hordinary (by rw [hcalls]; exact hnames))
    obtain ⟨call, hcall, hcallId, hname, -⟩ := hanswered arguments harguments
    obtain ⟨file, hlookup, rfl⟩ := Option.map_eq_some_iff.mp hrecord
    obtain ⟨hrecorded, -⟩ := hsorted.mentions.statuses file (Table.mem_of_lookup hlookup)
    have htype := (hsorted.apart.recorded hcall hrecorded (by rw [hid, hcallId])).2.2
    rw [← hid, ← hname, htype]
    exact ⟨of_decide_eq_true hnotId, of_decide_eq_true hnotType⟩
  · rintro ⟨hnames, hreal⟩ s events hfresh hsole hordinary ⟨rest, hcalls⟩
    have hfirst : ((events.filterMap FileQueueEvent.enqueues).map fun arguments =>
        filePath arguments.jobId).Nodup := by
      rw [← hcalls, List.map_append] at hnames
      exact hnames.of_append_left
    refine keepsApart_of_steady (steady_run (steady_of_fresh hfresh hsole)
      (meets_newName hfresh.enqueues hordinary hfirst) fun event hevent arguments harguments => hreal arguments ?_)
    rw [← hcalls]
    exact List.mem_append_left _ (List.mem_filterMap.mpr ⟨event, hevent, harguments⟩)

/-- The call of a mail under the id. -/
def mailCall (jobId : String) : EnqueueArguments :=
  { name := "email.send", options := { jobId := some jobId }, uuid := "" }

/-- The worker has a handler, both mails are enqueued, and the next tick runs what is in `pending` first. -/
def mailRun (first second : String) : List FileQueueEvent :=
  [.process 0 "email.send", .advanceRecovery 0 0, .advanceRecovery 0 0] ++
    enqueueAll 0 0 [mailCall first, mailCall second] ++
    List.replicate 7 (.advanceTick 0 0) ++ .tick 0 :: List.replicate 7 (.advanceTick 0 0) ++
    .settle 0 .success :: List.replicate 4 (.advanceTick 0 0)

/-- The files of the ids "a:b" and "a-b" have different names. -/
theorem mails_kept_apart : (FileQueueState.run {} (mailRun "a:b" "a-b")).KeepsApart 0 :=
  (keepsApart_iff 0 [mailCall "a:b", mailCall "a-b"] (by decide)).mpr ⟨by decide, by decide⟩ {}
    (mailRun "a:b" "a-b") ⟨rfl, rfl, rfl, fun _ => ⟨rfl, rfl⟩, rfl, rfl, rfl⟩
    ⟨fun _ _ => ⟨rfl, rfl, rfl⟩, List.forall_mem_nil _⟩ (by decide) ⟨[], rfl⟩

/-- The files of the ids "a:b" and "a_b" have one name. The second call finds the record of the first job and
answers; once the worker is idle the first job has been run, and the second is nowhere. -/
theorem second_mail_skipped :
    (mailCall "a:b").jobId ≠ (mailCall "a_b").jobId ∧
      (∀ event ∈ mailRun "a:b" "a_b", event.ordinary 0 = true) ∧
      (mailRun "a:b" "a_b").filterMap FileQueueEvent.enqueues = [mailCall "a:b", mailCall "a_b"] ∧
      (let s := FileQueueState.run {} (mailRun "a:b" "a_b")
      (∃ call ∈ s.enqueues, call.jobId = "a_b" ∧ call.stage = .answered "a_b") ∧
        (s.getJob 0 "a_b").map JobStatusRecord.jobId = some "a:b" ∧ s.isIdle 0 = true ∧
        s.invocations.map (fun invocation => invocation.job.id) = ["a:b"]) := by
  decide

end DealFlow360.Jobs
