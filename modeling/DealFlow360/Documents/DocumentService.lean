import DealFlow360.Js
import DealFlow360.Lib.Table

/-!
# Document analysis

`processDocument` for the attempts of one document's analysis job, one step for
each call of the repository, the storage, the AI service and the hook. A step
that fails throws and changes nothing. A worker may crash between any two
steps, and an attempt that has timed out is reported as failed while its
handler runs on. Of an extraction only what decides the status is kept.

A handler claims the document with a conditional update, reads the file, asks
for the extraction, writes the result and calls the hook; a failure is recorded
by a step of its own, which can fail as well. The attempts are those of the job
queue: several can be under way for one document, because an attempt that has
timed out goes on.
-/

namespace DealFlow360.Documents

inductive DocumentStatus where
  | uploaded | processing | completed | needsReview | failed
  deriving DecidableEq, Repr

structure Document where
  status : DocumentStatus := .uploaded
  /-- `requiresReview` of the saved extraction. -/
  extraction : Option Bool := none
  deriving DecidableEq, Repr

/-- The status of an extraction. -/
def extractionStatus (requiresReview : Bool) : DocumentStatus :=
  if requiresReview then .needsReview else .completed

/-- Where a handler stands before its next step. -/
inductive Stage where
  /-- `findByIdForUser`. -/
  | finding
  /-- The update of `claimForProcessing`, and its read. -/
  | claiming
  | claimed
  /-- The read after a claim that failed. -/
  | rereading
  | requiringAi
  | loading
  | extractingText
  | recording
  | asking
  | saving (requiresReview : Bool)
  | finishing (requiresReview : Bool)
  | announcing (requiresReview : Bool)
  /-- The write of the failure, before or after the result was written. -/
  | failing (written : Bool)
  | returned
  | threw
  | crashed
  deriving DecidableEq, Repr

/-- What a step meets: whether it fails, and what the AI service extracts. -/
structure Outcome where
  fails : Bool := false
  requiresReview : Bool := false
  deriving DecidableEq, Repr

namespace Document

variable (document : Document)

/-- `completed` or `needs_review`. -/
def done : Bool := document.status = .completed || document.status = .needsReview

/-- What `claimForProcessing` asks for. -/
def claimable : Bool := document.status = .uploaded || document.status = .failed

/-- The next step of a handler, and where it stands then. -/
def advance (outcome : Outcome) : Stage → Document × Stage
  | .finding =>
      (document, if outcome.fails then .threw else if document.done then .returned else .claiming)
  | .claiming =>
      if outcome.fails then (document, .threw)
      else if document.claimable then ({ document with status := .processing }, .claimed)
      else (document, .rereading)
  | .rereading => (document, if outcome.fails then .threw else .returned)
  | .claimed => (document, if outcome.fails then .threw else .requiringAi)
  | .requiringAi => (document, if outcome.fails then .threw else .loading)
  | .loading => (document, if outcome.fails then .failing false else .extractingText)
  | .extractingText => (document, if outcome.fails then .failing false else .recording)
  | .recording =>
      if outcome.fails then (document, .failing false) else ({ document with status := .processing }, .asking)
  | .asking => (document, if outcome.fails then .failing false else .saving outcome.requiresReview)
  | .saving requiresReview =>
      if outcome.fails then (document, .failing false)
      else ({ document with extraction := some requiresReview }, .finishing requiresReview)
  | .finishing requiresReview =>
      if outcome.fails then (document, .failing false)
      else ({ document with status := extractionStatus requiresReview }, .announcing requiresReview)
  | .announcing _ => (document, if outcome.fails then .failing true else .returned)
  | .failing _ => (if outcome.fails then document else { document with status := .failed }, .threw)
  | .returned => (document, .returned)
  | .threw => (document, .threw)
  | .crashed => (document, .crashed)

end Document

structure Attempt where
  id : Id
  stage : Stage := .finding
  timedOut : Bool := false
  deriving DecidableEq, Repr

def Stage.over : Stage → Bool
  | returned | threw | crashed => true
  | _ => false

/-- The attempt was reported as completed. -/
def Attempt.succeeded (attempt : Attempt) : Bool := attempt.stage = .returned && !attempt.timedOut

structure AnalysisJob where
  document : Document := {}
  attempts : List Attempt := []
  deriving DecidableEq, Repr

def AnalysisJob.completed (s : AnalysisJob) : Bool := s.attempts.any Attempt.succeeded

inductive AnalysisEvent where
  | start (id : Id)
  | step (id : Id) (outcome : Outcome)
  | crash (id : Id)
  | timeout (id : Id)
  deriving DecidableEq, Repr

namespace AnalysisJob

variable (s : AnalysisJob)

/-- The attempt, while its handler runs. -/
def running (id : Id) : Option Attempt :=
  (Table.lookup Attempt.id id s.attempts).filter fun attempt => !attempt.stage.over

def setAttempt (attempt : Attempt) : AnalysisJob :=
  { s with attempts := Table.upsert Attempt.id attempt s.attempts }

/-- No attempt starts once one was reported as completed. -/
def step : AnalysisEvent → AnalysisJob
  | .start id =>
      if s.completed ∨ (Table.lookup Attempt.id id s.attempts).isSome then s else s.setAttempt { id }
  | .step id outcome =>
      match s.running id with
      | none => s
      | some attempt =>
          let next := s.document.advance outcome attempt.stage
          { s with document := next.1 }.setAttempt { attempt with stage := next.2 }
  | .crash id =>
      match s.running id with
      | none => s
      | some attempt => s.setAttempt { attempt with stage := .crashed }
  | .timeout id =>
      match s.running id with
      | none => s
      | some attempt => s.setAttempt { attempt with timedOut := true }

end AnalysisJob

end DealFlow360.Documents
