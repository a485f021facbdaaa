import DealFlow360.Jobs.JobStatus

/-!
# Jobs

The record of a job as both queues build it, what its handler can come to, and
whether it is tried again. The payload and the reports of progress are left
out.

The patches that an attempt makes to the status are here as well, one for each
way it can end, with the fields the source writes. Whether a job is tried again
depends on its counter and on the limit in its record.
-/

namespace DealFlow360.Jobs

structure JobEnqueueOptions where
  attempts : Option ℤ := none
  backoffMs : Option ℕ := none
  jobId : Option String := none
  timeoutMs : Option ℕ := none
  retryable : Option Bool := none
  createdBy : Option String := none
  deriving DecidableEq, Repr

structure JobDefaults where
  defaultAttempts : ℤ := 1
  defaultBackoffMs : ℕ := 0
  defaultTimeoutMs : ℕ := 60000
  deriving DecidableEq, Repr

structure JobRecord where
  id : String
  name : String
  attempts : ℕ
  maxAttempts : ℤ
  backoffMs : ℕ
  timeoutMs : ℕ
  retryable : Bool
  createdAt : Timestamp
  deriving DecidableEq, Repr

/-- The truthy `options.jobId`: an empty one counts as none where a duplicate is looked for. -/
def JobEnqueueOptions.checkedId (options : JobEnqueueOptions) : Option String :=
  options.jobId.filter fun jobId => jobId ≠ ""

def JobEnqueueOptions.isRetryable (options : JobEnqueueOptions) : Bool :=
  options.retryable ≠ some false

/-- The job of an `enqueue`, with the id it is given or the one that was drawn for it. -/
def createJob (defaults : JobDefaults) (name : String) (options : JobEnqueueOptions) (uuid : String)
    (now : Timestamp) : JobRecord where
  id := options.jobId.getD uuid
  name
  attempts := 0
  maxAttempts := if options.isRetryable then options.attempts.getD defaults.defaultAttempts else 1
  backoffMs := options.backoffMs.getD defaults.defaultBackoffMs
  timeoutMs := options.timeoutMs.getD defaults.defaultTimeoutMs
  retryable := options.isRetryable
  createdAt := now

def createJobStatus (job : JobRecord) (createdBy : Option String) : JobStatusRecord where
  jobId := job.id
  type := job.name
  status := .queued
  attempts := 0
  createdAt := job.createdAt
  progress := some 0
  createdBy

/-- How an attempt ends: by itself, or by an error with its public text, of a kind that is retried or of
one that is not. -/
inductive JobOutcome where
  | success
  | failure (isRetryable : Bool) (message : String)
  deriving DecidableEq, Repr

/-- `shouldRetry`, for an error of a kind that is retried or of one that is not. -/
def JobRecord.shouldRetry (job : JobRecord) (isRetryable : Bool) : Bool :=
  if !job.retryable || decide (job.maxAttempts ≤ job.attempts) then false else isRetryable

def backoffDelay (backoffMs attempt : ℕ) : ℕ :=
  if backoffMs = 0 ∨ attempt = 0 then 0 else backoffMs * 2 ^ (attempt - 1)

/-! ## The patches of an attempt -/

def processingPatch (job : JobRecord) (now : Timestamp) : JobStatusPatch where
  status := some .processing
  attempts := some job.attempts
  startedAt := some (some now)
  progress := some (some 0)

def completedPatch (now : Timestamp) : JobStatusPatch where
  status := some .completed
  completedAt := some (some now)
  progress := some (some 100)
  error := some none

def retryingPatch (message : String) : JobStatusPatch where
  status := some .retrying
  error := some (some message)

def failedPatch (message : String) (now : Timestamp) : JobStatusPatch where
  status := some .failed
  completedAt := some (some now)
  error := some (some message)

end DealFlow360.Jobs
