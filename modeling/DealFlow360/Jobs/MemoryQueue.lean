import DealFlow360.Jobs.Job

/-!
# The queue in memory

An `enqueue` looks for a duplicate, puts the status and pushes the job, each
after an await. A drain takes one job after another from the front; while it
runs a job, calls and registrations go on.

The steps between awaits are the steps of the model: the program runs them
without interruption and other calls come in between. Handlers are registered
by type at any time; what a handler comes to is an argument of the run.
-/

namespace DealFlow360.Jobs

/-- Where an `enqueue` stands. -/
inductive EnqueueStage where
  | called
  /-- No duplicate was found; the job is built and its status put next. -/
  | checked
  /-- The job is pushed next. -/
  | recorded (job : JobRecord)
  | answered (jobId : String)
  /-- The queue is closed. -/
  | refused
  deriving DecidableEq, Repr

structure EnqueueCall where
  id : ℕ
  name : String
  options : JobEnqueueOptions := {}
  /-- What `randomUUID` answers this call. -/
  uuid : String
  stage : EnqueueStage := .called
  deriving DecidableEq, Repr

/-- The id of the job that the call is about. -/
def EnqueueCall.jobId (call : EnqueueCall) : String := call.options.jobId.getD call.uuid

/-- What the drain awaits. -/
inductive DrainStage where
  /-- The job was taken; its status is patched and its handler called next. -/
  | starting (job : JobRecord)
  | handling (job : JobRecord)
  /-- The handler has ended; the status is patched next. -/
  | ending (job : JobRecord) (outcome : JobOutcome)
  /-- The job is pushed again at the given time. -/
  | sleeping (job : JobRecord) (until_ : Timestamp)
  deriving DecidableEq, Repr

def DrainStage.job : DrainStage → JobRecord
  | starting job | handling job | ending job _ | sleeping job _ => job

structure InMemoryJobQueue where
  defaults : JobDefaults := {}
  handlers : List String := []
  pending : List JobRecord := []
  statuses : JobStatusTracker := {}
  /-- What the drain awaits, while `draining`. -/
  drain : Option DrainStage := none
  calls : List EnqueueCall := []
  closed : Bool := false
  now : Timestamp := 0
  deriving DecidableEq, Repr

namespace InMemoryJobQueue

/-- A patch by the tracker of this queue, which has no directory. -/
def patchStatus (q : InMemoryJobQueue) (jobId : String) (patch : JobStatusPatch) : JobStatusTracker :=
  (q.statuses.patch [] jobId patch).1

/-- The loop of `drain` takes its next job, or stops. -/
def next (q : InMemoryJobQueue) : InMemoryJobQueue :=
  match q.pending with
  | [] => { q with drain := none }
  | job :: rest =>
      if job.name ∈ q.handlers then
        { q with pending := rest, drain := some (.starting { job with attempts := job.attempts + 1 }) }
      else { q with drain := none }

/-- `drain`, which does nothing while one is running. -/
def drainNow (q : InMemoryJobQueue) : InMemoryJobQueue :=
  if q.drain.isSome then q else q.next

def process (name : String) (q : InMemoryJobQueue) : InMemoryJobQueue :=
  drainNow { q with handlers := if name ∈ q.handlers then q.handlers else q.handlers ++ [name] }

/-- The next step of an `enqueue`. -/
def advance (q : InMemoryJobQueue) (call : EnqueueCall) : InMemoryJobQueue × EnqueueStage :=
  match call.stage with
  | .called =>
      if q.closed then (q, .refused)
      else
        match call.options.checkedId with
        | none => (q, .checked)
        | some jobId =>
            match q.statuses.cached jobId with
            | none => (q, .checked)
            | some existing =>
                if existing.status ≠ .failed then (q, .answered jobId) else (q, .checked)
  | .checked =>
      let job := createJob q.defaults call.name call.options call.uuid q.now
      ({ q with statuses := q.statuses.remember job.id (createJobStatus job call.options.createdBy) },
        .recorded job)
  | .recorded job => (drainNow { q with pending := q.pending ++ [job] }, .answered job.id)
  | .answered jobId => (q, .answered jobId)
  | .refused => (q, .refused)

/-- The next step of the drain; a handler that is running ends by an event of its own. -/
def advanceDrain (q : InMemoryJobQueue) : InMemoryJobQueue :=
  match q.drain with
  | none => q
  | some (.starting job) =>
      { q with
        statuses := q.patchStatus job.id (processingPatch job q.now)
        drain := some (.handling job) }
  | some (.handling _) => q
  | some (.ending job .success) =>
      next { q with statuses := q.patchStatus job.id (completedPatch q.now) }
  | some (.ending job (.failure isRetryable message)) =>
      if job.shouldRetry isRetryable then
        { q with
          statuses := q.patchStatus job.id (retryingPatch message)
          drain := some (.sleeping job (q.now + backoffDelay job.backoffMs job.attempts)) }
      else next { q with statuses := q.patchStatus job.id (failedPatch message q.now) }
  | some (.sleeping job until_) =>
      if q.now < until_ then q else next { q with pending := q.pending ++ [job] }

end InMemoryJobQueue

inductive MemoryQueueEvent where
  | enqueue (id : ℕ) (name : String) (options : JobEnqueueOptions) (uuid : String)
  /-- An `enqueue` takes its next step. -/
  | advance (id : ℕ)
  | process (name : String)
  /-- The handler of the running job ends. -/
  | settle (outcome : JobOutcome)
  /-- The drain takes its next step. -/
  | drain
  | close
  | wait (milliseconds : ℕ)
  deriving DecidableEq, Repr

namespace InMemoryJobQueue

def step (q : InMemoryJobQueue) : MemoryQueueEvent → InMemoryJobQueue
  | .enqueue id name options uuid =>
      match Table.lookup EnqueueCall.id id q.calls with
      | some _ => q
      | none => { q with calls := Table.upsert EnqueueCall.id { id, name, options, uuid } q.calls }
  | .advance id =>
      match Table.lookup EnqueueCall.id id q.calls with
      | none => q
      | some call =>
          let advanced := q.advance call
          { advanced.1 with calls := Table.upsert EnqueueCall.id { call with stage := advanced.2 } q.calls }
  | .process name => q.process name
  | .settle outcome =>
      match q.drain with
      | some (.handling job) => { q with drain := some (.ending job outcome) }
      | _ => q
  | .drain => q.advanceDrain
  | .close => { q with closed := true }
  | .wait milliseconds => { q with now := q.now + milliseconds }

abbrev run (q : InMemoryJobQueue) (events : List MemoryQueueEvent) : InMemoryJobQueue :=
  Machine.run step q events

/-- Nothing has been enqueued yet. -/
structure Fresh (q : InMemoryJobQueue) : Prop where
  pending : q.pending = []
  drain : q.drain = none
  calls : q.calls = []
  statuses : q.statuses.memory = []

end InMemoryJobQueue

end DealFlow360.Jobs
