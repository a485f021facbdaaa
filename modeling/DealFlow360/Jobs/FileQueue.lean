import DealFlow360.Jobs.Job

/-!
# The queue in files

Every job is a file, in `pending` or in `processing`, named by its id. Any
number of processes share the two directories and the one of the status files.
Each call of the file system is one step: of an `enqueue`, of a tick, or of a
recovery, of which a process can have several in progress but only one tick.
Both directories hold only what these steps have put there.

The state has a row for each process: its ticks, its recovery, its calls and
its tracker. An event names a process and what it does next, so that a run is
an interleaving of any number of processes; a crash drops the row's memory and
keeps the files. Renaming is atomic, as the source relies on, and a missing
file makes it fail.
-/

namespace DealFlow360.Jobs

/-! ## Rows -/

/-- A job as its file holds it. The serial number tells apart jobs that were enqueued under one id. -/
structure FileJob extends JobRecord where
  availableAt : Timestamp
  serial : ℕ
  deriving DecidableEq, Repr

structure JobFile where
  name : String
  job : FileJob
  deriving DecidableEq, Repr

/-- What `readJob` takes for a job. -/
def FileJob.readable (job : FileJob) : Bool := job.id ≠ "" && job.name ≠ ""

abbrev JobDirectory := List JobFile

namespace JobDirectory

def read (directory : JobDirectory) (file : String) : Option FileJob :=
  (Table.lookup JobFile.name file directory).map JobFile.job

def write (file : String) (job : FileJob) (directory : JobDirectory) : JobDirectory :=
  Table.upsert JobFile.name { name := file, job } directory

def unlink (file : String) (directory : JobDirectory) : JobDirectory :=
  Table.erase JobFile.name file directory

end JobDirectory

/-! ## What is in progress -/

/-- Where an `enqueue` stands. -/
inductive FileEnqueueStage where
  | called
  | probingPending
  | probingProcessing
  /-- No duplicate was found; the job is built and its status remembered next. -/
  | passed
  /-- The status file is written next. -/
  | recording (job : JobRecord) (availableAt : Timestamp)
  /-- The job file is written next. -/
  | writing (job : JobRecord) (availableAt : Timestamp)
  | answered (jobId : String)
  /-- The queue is closed. -/
  | refused
  deriving DecidableEq, Repr

structure FileEnqueue where
  id : ℕ
  /-- The process it runs in. -/
  queue : ℕ
  name : String
  options : JobEnqueueOptions
  /-- What `randomUUID` answers this call. -/
  uuid : String
  stage : FileEnqueueStage := .called
  deriving DecidableEq, Repr

/-- The id of the job that the call is about. -/
def FileEnqueue.jobId (call : FileEnqueue) : String := call.options.jobId.getD call.uuid

inductive RecoveryStage where
  | listing
  /-- The files that are still to be renamed. -/
  | moving (files : List String)
  deriving DecidableEq, Repr

structure Recovery where
  id : ℕ
  queue : ℕ
  stage : RecoveryStage := .listing
  deriving DecidableEq, Repr

/-- What a patch of the status is for. -/
inductive StatusUpdate where
  | processing | completed
  | retrying (message : String)
  | failed (message : String)
  deriving DecidableEq, Repr

def StatusUpdate.patch (job : FileJob) (now : Timestamp) : StatusUpdate → JobStatusPatch
  | processing => processingPatch job.toJobRecord now
  | completed => completedPatch now
  | retrying message => retryingPatch message
  | failed message => failedPatch message now

/-- Where a tick stands with a file that it has renamed from `pending` to `processing`. -/
inductive HoldStage where
  /-- The file is read next. -/
  | claimed
  /-- It could not be read, and is unlinked next. -/
  | dropping
  /-- It is not due or has no handler, and is renamed back next. -/
  | returning
  /-- The status is read and patched next. -/
  | patching (job : FileJob) (update : StatusUpdate)
  /-- The status file is written next. -/
  | persisting (job : FileJob) (update : StatusUpdate) (record : JobStatusRecord)
  /-- The handler is called next. -/
  | starting (job : FileJob)
  | handling (job : FileJob) (invocation : ℕ)
  /-- The job is written to `pending` for its next attempt next. -/
  | rewriting (job : FileJob)
  /-- The file in `processing` is unlinked next; after a retry the job is in `pending` again. -/
  | unlinking (rewritten : Bool)
  deriving DecidableEq, Repr

inductive TickStage where
  | listing
  /-- The files that are still to be taken. -/
  | taking (files : List String)
  | holding (file : String) (stage : HoldStage) (files : List String)
  deriving DecidableEq, Repr

/-- One process. -/
structure FileJobQueue where
  defaults : JobDefaults := {}
  statuses : JobStatusTracker := {}
  handlers : List String := []
  timer : Bool := false
  closed : Bool := false
  /-- What the tick awaits, while `ticking`. -/
  tick : Option TickStage := none
  deriving DecidableEq, Repr

inductive InvocationState where
  | running | succeeded | failed
  /-- The process was killed. -/
  | killed
  deriving DecidableEq, Repr

/-- A call of a handler. One that has timed out is abandoned: it goes on, and nobody awaits it. -/
structure Invocation where
  id : ℕ
  queue : ℕ
  job : FileJob
  startedAt : Timestamp
  state : InvocationState := .running
  abandoned : Bool := false
  deriving DecidableEq, Repr

structure FileQueueState where
  pending : JobDirectory := []
  processing : JobDirectory := []
  statuses : StatusDirectory := []
  queues : ℕ → FileJobQueue := fun _ => {}
  enqueues : List FileEnqueue := []
  recoveries : List Recovery := []
  invocations : List Invocation := []
  now : Timestamp := 0
  nextSerial : ℕ := 0
  nextRecovery : ℕ := 0

namespace FileQueueState

variable (s : FileQueueState)

def setQueue (q : ℕ) (f : FileJobQueue → FileJobQueue) : FileQueueState :=
  { s with queues := Function.update s.queues q (f (s.queues q)) }

def setTick (q : ℕ) (stage : Option TickStage) : FileQueueState :=
  s.setQueue q fun queue => { queue with tick := stage }

/-- `ensureTimer`: without a timer, a recovery is started. -/
def ensureTimer (q : ℕ) : FileQueueState :=
  let queue := s.queues q
  if queue.closed || queue.timer || queue.handlers.isEmpty then s
  else
    { s with
      recoveries := s.recoveries ++ [{ id := s.nextRecovery, queue := q }]
      nextRecovery := s.nextRecovery + 1 }

/-- `tick`, which does nothing while one is in progress. -/
def startTick (q : ℕ) : FileQueueState :=
  if (s.queues q).tick.isSome then s else s.setTick q (some .listing)

/-! ## Enqueue -/

/-- The next step of an `enqueue`. -/
def advanceEnqueue (call : FileEnqueue) : FileQueueState × FileEnqueueStage :=
  let queue := s.queues call.queue
  let file := filePath call.jobId
  match call.stage with
  | .called =>
      if queue.closed then (s, .refused)
      else
        match call.options.checkedId with
        | none => (s, .passed)
        | some jobId =>
            let (tracker, existing) := queue.statuses.get s.statuses jobId
            (s.setQueue call.queue fun queue => { queue with statuses := tracker },
              if existing.any fun record => record.status ≠ .failed then .answered jobId
              else .probingPending)
  | .probingPending =>
      (s, if (s.pending.read file).isSome then .answered call.jobId else .probingProcessing)
  | .probingProcessing =>
      (s, if (s.processing.read file).isSome then .answered call.jobId else .passed)
  | .passed =>
      let job := createJob queue.defaults call.name call.options call.uuid s.now
      let record := createJobStatus job call.options.createdBy
      (s.setQueue call.queue fun queue =>
          { queue with statuses := queue.statuses.remember record.jobId record },
        .recording job s.now)
  | .recording job availableAt =>
      let record := createJobStatus job call.options.createdBy
      ({ s with statuses := s.statuses.persist record }, .writing job availableAt)
  | .writing job availableAt =>
      let written := { s with
        pending := s.pending.write (filePath job.id) { job with availableAt, serial := s.nextSerial }
        nextSerial := s.nextSerial + 1 }
      (written.ensureTimer call.queue, .answered job.id)
  | .answered jobId => (s, .answered jobId)
  | .refused => (s, .refused)

/-! ## Recovery -/

/-- `rename` from `processing` to `pending`, which fails where there is no such file. -/
def moveBack (file : String) : FileQueueState :=
  match s.processing.read file with
  | none => s
  | some job =>
      { s with processing := s.processing.unlink file, pending := s.pending.write file job }

/-- The next step of a recovery. The renames are started together, so any of them can be next. -/
def advanceRecovery (recovery : Recovery) (pick : ℕ) : FileQueueState × Option RecoveryStage :=
  match recovery.stage with
  | .listing => (s, some (.moving (s.processing.map JobFile.name)))
  | .moving [] =>
      if (s.queues recovery.queue).closed then (s, none)
      else ((s.setQueue recovery.queue fun queue => { queue with timer := true }).startTick recovery.queue,
        none)
  | .moving files =>
      match files[pick]? with
      | none => (s, some (.moving files))
      | some file => (s.moveBack file, some (.moving (files.eraseIdx pick)))

/-! ## Tick -/

/-- What follows a patch of the status. -/
def StatusUpdate.next (job : FileJob) : StatusUpdate → HoldStage
  | .processing => .starting job
  | .completed => .unlinking false
  | .retrying _ => .rewriting job
  | .failed _ => .unlinking false

/-- What follows the reading of a file. -/
def afterRead (q : ℕ) (file : String) : HoldStage :=
  match s.processing.read file with
  | none => .dropping
  | some job =>
      if !job.readable then .dropping
      else if s.now < job.availableAt then .returning
      else if job.name ∉ (s.queues q).handlers then .returning
      else .patching { job with attempts := job.attempts + 1 } .processing

/-- The next step of a tick with the file it holds. A handler that is running ends by an event of its
own. -/
def advanceHold (q : ℕ) (file : String) (files : List String) : HoldStage → FileQueueState
  | .claimed => s.setTick q (some (.holding file (s.afterRead q file) files))
  | .dropping =>
      setTick { s with processing := s.processing.unlink file } q (some (.taking files))
  | .returning => (s.moveBack file).setTick q (some (.taking files))
  | .patching job update =>
      let (tracker, current) := (s.queues q).statuses.get s.statuses job.id
      match current with
      | none =>
          (s.setQueue q fun queue => { queue with statuses := tracker }).setTick q
            (some (.holding file (StatusUpdate.next job update) files))
      | some current =>
          let record := current.patched (update.patch job s.now)
          (s.setQueue q fun queue =>
              { queue with statuses := tracker.remember record.jobId record }).setTick q
            (some (.holding file (.persisting job update record) files))
  | .persisting job update record =>
      setTick { s with statuses := s.statuses.persist record } q
        (some (.holding file (StatusUpdate.next job update) files))
  | .starting job =>
      setTick
        { s with
          invocations := s.invocations ++
            [{ id := s.invocations.length, queue := q, job, startedAt := s.now }] } q
        (some (.holding file (.handling job s.invocations.length) files))
  | .handling _ _ => s
  | .rewriting job =>
      setTick { s with pending := s.pending.write (filePath job.id) job } q
        (some (.holding file (.unlinking true) files))
  | .unlinking _ =>
      setTick { s with processing := s.processing.unlink file } q (some (.taking files))

/-- The next step of the tick. The directory lists its files in any order, so any can be next. -/
def advanceTick (q : ℕ) (pick : ℕ) : FileQueueState :=
  match (s.queues q).tick with
  | none => s
  | some .listing => s.setTick q (some (.taking (s.pending.map JobFile.name)))
  | some (.taking []) => s.setTick q none
  | some (.taking files) =>
      if (s.queues q).closed then s.setTick q none
      else
        match files[pick]? with
        | none => s
        | some file =>
            match s.pending.read file with
            | none => s.setTick q (some (.taking (files.eraseIdx pick)))
            | some job =>
                setTick
                  { s with
                    pending := s.pending.unlink file
                    processing := s.processing.write file job } q
                  (some (.holding file .claimed (files.eraseIdx pick)))
  | some (.holding file stage files) => s.advanceHold q file files stage

/-! ## Handlers -/

def setInvocation (id : ℕ) (f : Invocation → Invocation) : FileQueueState :=
  { s with invocations := s.invocations.map fun invocation =>
      if invocation.id = id then f invocation else invocation }

/-- The awaited attempt has ended: the job is done, tried again or given up. -/
def settled (q : ℕ) (file : String) (files : List String) (job : FileJob) :
    JobOutcome → FileQueueState
  | .success => s.setTick q (some (.holding file (.patching job .completed) files))
  | .failure isRetryable message =>
      if job.shouldRetry isRetryable && !(s.queues q).closed then
        let job := { job with availableAt := s.now + backoffDelay job.backoffMs job.attempts }
        s.setTick q (some (.holding file (.patching job (.retrying message)) files))
      else s.setTick q (some (.holding file (.patching job (.failed message)) files))

def JobOutcome.state : JobOutcome → InvocationState
  | .success => .succeeded
  | .failure _ _ => .failed

/-- The handler that a tick awaits ends. -/
def settle (q : ℕ) (outcome : JobOutcome) : FileQueueState :=
  match (s.queues q).tick with
  | some (.holding file (.handling job invocation) files) =>
      (s.setInvocation invocation fun invocation =>
        { invocation with state := JobOutcome.state outcome }).settled q file files job outcome
  | _ => s

/-- The handler that a tick awaits has had its time. -/
def timeout (q : ℕ) : FileQueueState :=
  match (s.queues q).tick with
  | some (.holding file (.handling job invocation) files) =>
      match s.invocations.find? fun other => other.id = invocation with
      | none => s
      | some running =>
          if job.timeoutMs = 0 ∨ s.now < running.startedAt + job.timeoutMs then s
          else
            (s.setInvocation invocation fun invocation =>
              { invocation with abandoned := true }).settled q file files job
                (.failure true "Background job timed out")
  | _ => s

end FileQueueState

/-! ## Runs -/

inductive FileQueueEvent where
  | enqueue (id : ℕ) (queue : ℕ) (name : String) (options : JobEnqueueOptions) (uuid : String)
  | process (queue : ℕ) (name : String)
  /-- An `enqueue` takes its next step. -/
  | advanceEnqueue (id : ℕ)
  /-- A recovery takes its next step. -/
  | advanceRecovery (id : ℕ) (pick : ℕ)
  /-- The timer of the process fires. -/
  | tick (queue : ℕ)
  /-- The tick takes its next step. -/
  | advanceTick (queue : ℕ) (pick : ℕ)
  /-- The handler that the tick awaits ends. -/
  | settle (queue : ℕ) (outcome : JobOutcome)
  /-- The handler that the tick awaits has had its time. -/
  | timeout (queue : ℕ)
  /-- The handler of an abandoned invocation ends. -/
  | return (invocation : ℕ) (outcome : JobOutcome)
  | close (queue : ℕ)
  /-- The process is killed; the same number stands for the process that is started next. -/
  | crash (queue : ℕ)
  | wait (milliseconds : ℕ)
  deriving DecidableEq, Repr

namespace FileQueueState

def step (s : FileQueueState) : FileQueueEvent → FileQueueState
  | .enqueue id queue name options uuid =>
      match Table.lookup FileEnqueue.id id s.enqueues with
      | some _ => s
      | none =>
          { s with
            enqueues := Table.upsert FileEnqueue.id { id, queue, name, options, uuid } s.enqueues }
  | .process q name =>
      (s.setQueue q fun queue =>
        { queue with
          handlers := if name ∈ queue.handlers then queue.handlers else queue.handlers ++ [name] }).ensureTimer
        q
  | .advanceEnqueue id =>
      match Table.lookup FileEnqueue.id id s.enqueues with
      | none => s
      | some call =>
          let advanced := s.advanceEnqueue call
          { advanced.1 with
            enqueues := Table.upsert FileEnqueue.id { call with stage := advanced.2 } s.enqueues }
  | .advanceRecovery id pick =>
      match Table.lookup Recovery.id id s.recoveries with
      | none => s
      | some recovery =>
          let advanced := s.advanceRecovery recovery pick
          { advanced.1 with
            recoveries :=
              match advanced.2 with
              | none => Table.erase Recovery.id id s.recoveries
              | some stage => Table.upsert Recovery.id { recovery with stage } s.recoveries }
  | .tick q => if (s.queues q).timer then s.startTick q else s
  | .advanceTick q pick => s.advanceTick q pick
  | .settle q outcome => s.settle q outcome
  | .timeout q => s.timeout q
  | .return invocation outcome =>
      s.setInvocation invocation fun other =>
        if other.abandoned && other.state = .running then
          { other with state := JobOutcome.state outcome }
        else other
  | .close q => s.setQueue q fun queue => { queue with closed := true, timer := false }
  | .crash q =>
      { s with
        queues := Function.update s.queues q { defaults := (s.queues q).defaults }
        enqueues := s.enqueues.filter fun call => call.queue ≠ q
        recoveries := s.recoveries.filter fun recovery => recovery.queue ≠ q
        invocations := s.invocations.map fun invocation =>
          if invocation.queue = q ∧ invocation.state = .running then { invocation with state := .killed }
          else invocation }
  | .wait milliseconds => { s with now := s.now + milliseconds }

abbrev run (s : FileQueueState) (events : List FileQueueEvent) : FileQueueState :=
  Machine.run step s events

/-- Nothing is in progress, and nothing has been enqueued yet. -/
structure Fresh (s : FileQueueState) : Prop where
  pending : s.pending = []
  processing : s.processing = []
  statuses : s.statuses = []
  idle : ∀ q, (s.queues q).tick = none ∧ (s.queues q).statuses.memory = []
  enqueues : s.enqueues = []
  recoveries : s.recoveries = []
  invocations : s.invocations = []

end FileQueueState

end DealFlow360.Jobs
