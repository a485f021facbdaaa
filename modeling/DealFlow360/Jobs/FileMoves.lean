import DealFlow360.Jobs.FileQueue

/-!
# What a step does to the job files

A file in `processing` is held by the tick that renamed it there. The phase of
a hold leaves out whether the status is being read or written. `Moved` lists
what one event can do to the two directories, the holds and the invocations;
what is true in every run is proved by cases on it.

There is one lemma for each kind of step (an `enqueue`, a recovery, a tick, a
handler's end, a crash) and one that joins them, `moved`. Nothing after this
module unfolds a step of the queue: invariants about files are proved by cases
on `Moved`, most of which move one file or none.
-/

namespace DealFlow360.Jobs

/-! ## Holds -/

/-- Where a tick stands with the file it holds, the steps on the status left out. -/
inductive Phase where
  | reading | dropping | returning
  /-- The job was read and will be run. -/
  | ready (job : FileJob)
  | active (job : FileJob) (invocation : ℕ)
  /-- The job will be written to `pending` again. -/
  | retrying (job : FileJob)
  /-- The job is done or given up. -/
  | spent
  /-- The job is in `pending` again, and its old file is still in `processing`. -/
  | cleaning
  deriving DecidableEq, Repr

def StatusUpdate.phase (job : FileJob) : StatusUpdate → Phase
  | processing => .ready job
  | completed => .spent
  | retrying _ => .retrying job
  | failed _ => .spent

def HoldStage.phase : HoldStage → Phase
  | claimed => .reading
  | dropping => .dropping
  | returning => .returning
  | patching job update => update.phase job
  | persisting job update _ => update.phase job
  | starting job => .ready job
  | handling job invocation => .active job invocation
  | rewriting job => .retrying job
  | unlinking rewritten => if rewritten then .cleaning else .spent

def Phase.job : Phase → Option FileJob
  | ready job | active job _ | retrying job => some job
  | _ => none

def TickStage.hold : TickStage → Option (String × Phase)
  | holding file stage _ => some (file, stage.phase)
  | _ => none

@[simp] theorem TickStage.hold_holding (file : String) (stage : HoldStage) (files : List String) :
    (holding file stage files).hold = some (file, stage.phase) := rfl

/-- A job as it was enqueued. What a run changes in it is left out. -/
def FileJob.origin (job : FileJob) : FileJob := { job with attempts := 0, availableAt := 0 }

namespace FileQueueState

/-- The file that the tick of the process holds. -/
def holds (s : FileQueueState) (q : ℕ) : Option (String × Phase) := (s.queues q).tick.bind TickStage.hold

/-- The tick of the process holds the file, and has not put its job back. -/
def Owns (s : FileQueueState) (q : ℕ) (file : String) : Prop :=
  ∃ phase, s.holds q = some (file, phase) ∧ phase ≠ .cleaning

/-- The file that a recovery moves in this step. -/
def recovers (s : FileQueueState) : FileQueueEvent → Option String
  | .advanceRecovery id pick => (Table.lookup Recovery.id id s.recoveries).bind fun recovery =>
      match recovery.stage with
      | .moving files => files[pick]?.filter fun file => (s.processing.read file).isSome
      | .listing => none
  | _ => none

/-- The job whose file an `enqueue` writes in this step. -/
def writes (s : FileQueueState) : FileQueueEvent → Option JobRecord
  | .advanceEnqueue id => (Table.lookup FileEnqueue.id id s.enqueues).bind fun call =>
      match call.stage with
      | .writing job _ => some job
      | _ => none
  | _ => none

/-- When the job whose file an `enqueue` writes in this step is due. -/
def dueAt (s : FileQueueState) : FileQueueEvent → Option Timestamp
  | .advanceEnqueue id => (Table.lookup FileEnqueue.id id s.enqueues).bind fun call =>
      match call.stage with
      | .writing _ availableAt => some availableAt
      | _ => none
  | _ => none

/-- The job whose handler is called in this step. -/
def starts (s : FileQueueState) : FileQueueEvent → Option FileJob
  | .advanceTick q _ =>
      match (s.queues q).tick with
      | some (.holding _ (.starting job) _) => some job
      | _ => none
  | _ => none

end FileQueueState

/-! ## Moves -/

/-- What a tick makes of the file it has read. -/
inductive Reads (s : FileQueueState) (file : String) : Phase → Prop
  | dropped (hfile : ∀ job, s.processing.read file = some job → job.readable = false) : Reads s file .dropping
  | returned : Reads s file .returning
  | ready {job} (hfile : s.processing.read file = some job) (hreadable : job.readable = true) :
      Reads s file (.ready { job with attempts := job.attempts + 1 })

/-- What becomes of a job when the attempt that is awaited ends, and of the record of the invocation. -/
inductive Settles (job : FileJob) : Phase → (Invocation → Invocation) → Prop
  | ended (state : InvocationState) (hstate : state = .succeeded ∨ state = .failed) :
      Settles job .spent fun invocation => { invocation with state }
  | retried (availableAt : Timestamp) (hleft : (job.attempts : ℤ) < job.maxAttempts)
      (hretryable : job.retryable = true) :
      Settles job (.retrying { job with availableAt }) fun invocation =>
        { invocation with state := .failed }
  | abandoned : Settles job .spent fun invocation => { invocation with abandoned := true }
  | timedOut (availableAt : Timestamp) (hleft : (job.attempts : ℤ) < job.maxAttempts)
      (hretryable : job.retryable = true) :
      Settles job (.retrying { job with availableAt }) fun invocation =>
        { invocation with abandoned := true }

/-- The records of the invocations, those of the given id rewritten. -/
def rewriteInvocation (id : ℕ) (f : Invocation → Invocation) (invocations : List Invocation) :
    List Invocation :=
  invocations.map fun invocation => if invocation.id = id then f invocation else invocation

/-- The files, the holds and the invocations are the same. -/
structure SameFiles (s s' : FileQueueState) : Prop where
  pending : s'.pending = s.pending
  processing : s'.processing = s.processing
  holds : s'.holds = s.holds
  invocations : s'.invocations = s.invocations
  nextSerial : s'.nextSerial = s.nextSerial

/-- What an event does to the files, the holds and the invocations. -/
inductive Moved (s : FileQueueState) (event : FileQueueEvent) (s' : FileQueueState) : Prop
  | kept (h : SameFiles s s')
  /-- An `enqueue` writes its job. -/
  | enqueued {job availableAt} (hwrites : s.writes event = some job)
      (hpending : s'.pending =
        s.pending.write (filePath job.id) { job with availableAt, serial := s.nextSerial })
      (hprocessing : s'.processing = s.processing) (hholds : s'.holds = s.holds)
      (hinvocations : s'.invocations = s.invocations) (hserial : s'.nextSerial = s.nextSerial + 1)
      (hdue : s.dueAt event = some availableAt)
  /-- A recovery moves a file back. -/
  | recovered {file job} (hrecovers : s.recovers event = some file)
      (hfile : s.processing.read file = some job) (hpending : s'.pending = s.pending.write file job)
      (hprocessing : s'.processing = s.processing.unlink file) (hholds : s'.holds = s.holds)
      (hinvocations : s'.invocations = s.invocations) (hserial : s'.nextSerial = s.nextSerial)
  /-- A tick takes a file. -/
  | claimed {q file job} (hq : s.holds q = none) (hfile : s.pending.read file = some job)
      (hpending : s'.pending = s.pending.unlink file)
      (hprocessing : s'.processing = s.processing.write file job)
      (hholds : s'.holds = Function.update s.holds q (some (file, .reading)))
      (hinvocations : s'.invocations = s.invocations) (hserial : s'.nextSerial = s.nextSerial)
  /-- A tick reads the file it has taken. -/
  | read {q file phase} (hq : s.holds q = some (file, .reading)) (hphase : Reads s file phase)
      (hpending : s'.pending = s.pending) (hprocessing : s'.processing = s.processing)
      (hholds : s'.holds = Function.update s.holds q (some (file, phase)))
      (hinvocations : s'.invocations = s.invocations) (hserial : s'.nextSerial = s.nextSerial)
  /-- A tick puts the file back, if it is still there. -/
  | returned {q file} (hq : s.holds q = some (file, .returning))
      (hfiles : s.processing.read file = none ∧ s'.pending = s.pending ∧ s'.processing = s.processing ∨
        ∃ job, s.processing.read file = some job ∧ s'.pending = s.pending.write file job ∧
          s'.processing = s.processing.unlink file)
      (hholds : s'.holds = Function.update s.holds q none)
      (hinvocations : s'.invocations = s.invocations) (hserial : s'.nextSerial = s.nextSerial)
  /-- A tick calls the handler. -/
  | started {q file job} (hstarts : s.starts event = some job) (hq : s.holds q = some (file, .ready job))
      (hpending : s'.pending = s.pending) (hprocessing : s'.processing = s.processing)
      (hholds : s'.holds = Function.update s.holds q (some (file, .active job s.invocations.length)))
      (hinvocations : s'.invocations = s.invocations ++
        [{ id := s.invocations.length, queue := q, job, startedAt := s.now }])
      (hserial : s'.nextSerial = s.nextSerial)
  /-- The attempt that a tick awaits ends. -/
  | settled {q file job invocation phase f} (hq : s.holds q = some (file, .active job invocation))
      (hsettles : Settles job phase f)
      (hpending : s'.pending = s.pending) (hprocessing : s'.processing = s.processing)
      (hholds : s'.holds = Function.update s.holds q (some (file, phase)))
      (hinvocations : s'.invocations = rewriteInvocation invocation f s.invocations)
      (hserial : s'.nextSerial = s.nextSerial)
  /-- A tick writes the job for its next attempt. -/
  | rewritten {q file job} (hq : s.holds q = some (file, .retrying job))
      (hpending : s'.pending = s.pending.write (filePath job.id) job)
      (hprocessing : s'.processing = s.processing)
      (hholds : s'.holds = Function.update s.holds q (some (file, .cleaning)))
      (hinvocations : s'.invocations = s.invocations) (hserial : s'.nextSerial = s.nextSerial)
  /-- A tick unlinks the file. -/
  | unlinked {q file phase} (hq : s.holds q = some (file, phase))
      (hphase : phase = .dropping ∨ phase = .spent ∨ phase = .cleaning)
      (hpending : s'.pending = s.pending) (hprocessing : s'.processing = s.processing.unlink file)
      (hholds : s'.holds = Function.update s.holds q none)
      (hinvocations : s'.invocations = s.invocations) (hserial : s'.nextSerial = s.nextSerial)
  /-- The handler of an abandoned invocation ends. -/
  | ended {invocation state} (hstate : state = InvocationState.succeeded ∨ state = .failed)
      (hpending : s'.pending = s.pending) (hprocessing : s'.processing = s.processing)
      (hholds : s'.holds = s.holds)
      (hinvocations : s'.invocations = rewriteInvocation invocation
        (fun other => if other.abandoned && other.state = .running then { other with state } else other)
        s.invocations)
      (hserial : s'.nextSerial = s.nextSerial)
  /-- A process is killed. -/
  | crashed {q} (hevent : event = .crash q)
      (hpending : s'.pending = s.pending) (hprocessing : s'.processing = s.processing)
      (hholds : s'.holds = Function.update s.holds q none)
      (hinvocations : s'.invocations = s.invocations.map fun invocation =>
        if invocation.queue = q ∧ invocation.state = .running then { invocation with state := .killed }
        else invocation)
      (hserial : s'.nextSerial = s.nextSerial)

section Moves

variable {s : FileQueueState} {q : ℕ}

theorem setQueue_self (s : FileQueueState) (q : ℕ) (f : FileJobQueue → FileJobQueue) :
    (s.setQueue q f).queues q = f (s.queues q) :=
  Function.update_self ..

theorem setQueue_of_ne {p : ℕ} (h : p ≠ q) (s : FileQueueState) (f : FileJobQueue → FileJobQueue) :
    (s.setQueue q f).queues p = s.queues p :=
  Function.update_of_ne h ..

theorem holds_setQueue (s : FileQueueState) (q : ℕ) (f : FileJobQueue → FileJobQueue) :
    (s.setQueue q f).holds = Function.update s.holds q ((f (s.queues q)).tick.bind TickStage.hold) := by
  funext p
  unfold FileQueueState.holds
  by_cases hp : p = q
  · rw [hp, setQueue_self, Function.update_self]
  · rw [setQueue_of_ne hp, Function.update_of_ne hp]

/-- What leaves the tick of the process alone leaves the holds alone. -/
theorem holds_setQueue_of_tick {f : FileJobQueue → FileJobQueue}
    (hf : (f (s.queues q)).tick = (s.queues q).tick) : (s.setQueue q f).holds = s.holds := by
  rw [holds_setQueue, hf]
  exact Function.update_eq_self q s.holds

theorem holds_setTick (s : FileQueueState) (q : ℕ) (stage : Option TickStage) :
    (s.setTick q stage).holds = Function.update s.holds q (stage.bind TickStage.hold) :=
  holds_setQueue s q _

/-- A tick that goes on with the same hold. -/
theorem holds_setTick_of_eq {stage : Option TickStage}
    (h : s.holds q = stage.bind TickStage.hold) : (s.setTick q stage).holds = s.holds := by
  rw [holds_setTick, ← h]
  exact Function.update_eq_self q s.holds

theorem holds_of_tick {stage : Option TickStage} (h : (s.queues q).tick = stage) :
    s.holds q = stage.bind TickStage.hold := by
  unfold FileQueueState.holds
  rw [h]

/-- A handler is called for the job that a tick holds. -/
theorem holds_of_starts {event : FileQueueEvent} {job : FileJob} (h : s.starts event = some job) :
    ∃ q file, s.holds q = some (file, .ready job) := by
  unfold FileQueueState.starts at h
  split at h
  · rename_i q _
    split at h
    · rename_i file started _ htick
      cases Option.some.inj h
      exact ⟨q, file, holds_of_tick htick⟩
    · cases h
  · cases h

theorem next_phase (job : FileJob) (update : StatusUpdate) :
    (FileQueueState.StatusUpdate.next job update).phase = update.phase job := by
  cases update <;> rfl

/-! ## Every event -/

theorem SameFiles.refl (s : FileQueueState) : SameFiles s s := ⟨rfl, rfl, rfl, rfl, rfl⟩

theorem SameFiles.trans {s s' s'' : FileQueueState} (h : SameFiles s s') (h' : SameFiles s' s'') :
    SameFiles s s'' where
  pending := h'.pending.trans h.pending
  processing := h'.processing.trans h.processing
  holds := h'.holds.trans h.holds
  invocations := h'.invocations.trans h.invocations
  nextSerial := h'.nextSerial.trans h.nextSerial

theorem sameFiles_setQueue {f : FileJobQueue → FileJobQueue}
    (hf : (f (s.queues q)).tick = (s.queues q).tick) : SameFiles s (s.setQueue q f) :=
  ⟨rfl, rfl, holds_setQueue_of_tick hf, rfl, rfl⟩

theorem sameFiles_setTick {stage : Option TickStage} (h : s.holds q = stage.bind TickStage.hold) :
    SameFiles s (s.setTick q stage) :=
  ⟨rfl, rfl, holds_setTick_of_eq h, rfl, rfl⟩

theorem sameFiles_startTick (s : FileQueueState) (q : ℕ) : SameFiles s (s.startTick q) := by
  unfold FileQueueState.startTick
  split
  · exact .refl s
  · rename_i hidle
    refine sameFiles_setTick ?_
    rw [holds_of_tick (Option.not_isSome_iff_eq_none.mp hidle)]
    rfl

theorem sameFiles_ensureTimer (s : FileQueueState) (q : ℕ) : SameFiles s (s.ensureTimer q) := by
  unfold FileQueueState.ensureTimer
  dsimp only
  split <;> exact ⟨rfl, rfl, rfl, rfl, rfl⟩

/-- A step of an `enqueue` leaves the job files alone, unless it writes its job. -/
theorem sameFiles_advanceEnqueue (s : FileQueueState) (call : FileEnqueue)
    (h : ∀ job availableAt, call.stage ≠ .writing job availableAt) :
    SameFiles s (s.advanceEnqueue call).1 := by
  unfold FileQueueState.advanceEnqueue
  cases hstage : call.stage with
  | called =>
      dsimp only
      split
      · exact .refl s
      · split
        · exact .refl s
        · exact sameFiles_setQueue (f := fun queue => { queue with statuses := _ }) rfl
  | passed => exact sameFiles_setQueue (f := fun queue => { queue with statuses := _ }) rfl
  | writing job availableAt => exact absurd hstage (h job availableAt)
  | _ => exact ⟨rfl, rfl, rfl, rfl, rfl⟩

theorem moved_advanceEnqueue (s : FileQueueState) (id : ℕ) :
    Moved s (.advanceEnqueue id) (s.step (.advanceEnqueue id)) := by
  unfold FileQueueState.step
  dsimp only
  cases hlookup : Table.lookup FileEnqueue.id id s.enqueues with
  | none => exact .kept (.refl s)
  | some call =>
      by_cases hwriting : ∃ job availableAt, call.stage = .writing job availableAt
      · obtain ⟨job, availableAt, hstage⟩ := hwriting
        have hwrites : s.writes (.advanceEnqueue id) = some job := by
          unfold FileQueueState.writes
          dsimp only
          rw [hlookup, Option.bind_some, hstage]
        have hdue : s.dueAt (.advanceEnqueue id) = some availableAt := by
          unfold FileQueueState.dueAt
          dsimp only
          rw [hlookup, Option.bind_some, hstage]
        have hadvance : s.advanceEnqueue call =
            (FileQueueState.ensureTimer { s with
              pending := s.pending.write (filePath job.id) { job with availableAt, serial := s.nextSerial }
              nextSerial := s.nextSerial + 1 } call.queue, .answered job.id) := by
          unfold FileQueueState.advanceEnqueue
          rw [hstage]
        dsimp only
        rw [hadvance]
        have hsame := sameFiles_ensureTimer { s with
          pending := s.pending.write (filePath job.id) { job with availableAt, serial := s.nextSerial }
          nextSerial := s.nextSerial + 1 } call.queue
        exact .enqueued hwrites hsame.pending hsame.processing hsame.holds hsame.invocations hsame.nextSerial hdue
      · have hsame := sameFiles_advanceEnqueue s call fun job availableAt hstage =>
          hwriting ⟨job, availableAt, hstage⟩
        exact .kept ⟨hsame.pending, hsame.processing, hsame.holds, hsame.invocations, hsame.nextSerial⟩

theorem moved_advanceRecovery (s : FileQueueState) (id pick : ℕ) :
    Moved s (.advanceRecovery id pick) (s.step (.advanceRecovery id pick)) := by
  unfold FileQueueState.step
  dsimp only
  cases hlookup : Table.lookup Recovery.id id s.recoveries with
  | none => exact .kept (.refl s)
  | some recovery =>
      dsimp only
      have hkept (h : SameFiles s (s.advanceRecovery recovery pick).1) (recoveries : List Recovery) :
          Moved s (.advanceRecovery id pick) { (s.advanceRecovery recovery pick).1 with recoveries } :=
        .kept ⟨h.pending, h.processing, h.holds, h.invocations, h.nextSerial⟩
      cases hstage : recovery.stage with
      | listing =>
          refine hkept ?_ _
          unfold FileQueueState.advanceRecovery
          rw [hstage]
          exact .refl s
      | moving files =>
          cases files with
          | nil =>
              refine hkept ?_ _
              unfold FileQueueState.advanceRecovery
              rw [hstage]
              dsimp only
              split
              · exact .refl s
              · exact (sameFiles_setQueue (by rfl)).trans (sameFiles_startTick _ _)
          | cons first rest =>
              cases hpick : (first :: rest)[pick]? with
              | none =>
                  refine hkept ?_ _
                  unfold FileQueueState.advanceRecovery
                  rw [hstage]
                  dsimp only
                  rw [hpick]
                  exact .refl s
              | some file =>
                  have hadvance : (s.advanceRecovery recovery pick).1 = s.moveBack file := by
                    unfold FileQueueState.advanceRecovery
                    rw [hstage]
                    dsimp only
                    rw [hpick]
                  cases hfile : s.processing.read file with
                  | none =>
                      refine hkept ?_ _
                      rw [hadvance]
                      unfold FileQueueState.moveBack
                      rw [hfile]
                      exact .refl s
                  | some job =>
                      have hrecovers : s.recovers (.advanceRecovery id pick) = some file := by
                        unfold FileQueueState.recovers
                        dsimp only
                        rw [hlookup, Option.bind_some, hstage]
                        dsimp only
                        rw [hpick, Option.filter_some, hfile]
                        rfl
                      have hmoved : s.moveBack file = { s with
                          processing := s.processing.unlink file
                          pending := s.pending.write file job } := by
                        unfold FileQueueState.moveBack
                        rw [hfile]
                      rw [hadvance, hmoved]
                      exact .recovered hrecovers hfile rfl rfl rfl rfl rfl

theorem reads_afterRead (s : FileQueueState) (q : ℕ) (file : String) :
    Reads s file (s.afterRead q file).phase := by
  unfold FileQueueState.afterRead
  split
  · rename_i hfile
    refine .dropped fun job hjob => ?_
    rw [hfile] at hjob
    cases hjob
  · rename_i job hfile
    split
    · rename_i hreadable
      refine .dropped fun other hother => ?_
      rw [hfile] at hother
      cases Option.some.inj hother
      simpa using hreadable
    · rename_i hreadable
      split
      · exact .returned
      · split
        · exact .returned
        · exact .ready hfile (by simpa using hreadable)

theorem moveBack_files (s : FileQueueState) (file : String) :
    (s.processing.read file = none ∧ (s.moveBack file).pending = s.pending ∧
          (s.moveBack file).processing = s.processing ∨
        ∃ job, s.processing.read file = some job ∧ (s.moveBack file).pending = s.pending.write file job ∧
          (s.moveBack file).processing = s.processing.unlink file) ∧
      (s.moveBack file).holds = s.holds ∧ (s.moveBack file).invocations = s.invocations ∧
      (s.moveBack file).nextSerial = s.nextSerial := by
  unfold FileQueueState.moveBack
  split
  · rename_i hfile
    exact ⟨.inl ⟨hfile, rfl, rfl⟩, rfl, rfl, rfl⟩
  · rename_i job hfile
    exact ⟨.inr ⟨job, hfile, rfl, rfl⟩, rfl, rfl, rfl⟩

theorem moved_advanceHold {event : FileQueueEvent} {file : String} {stage : HoldStage} {files : List String}
    (htick : (s.queues q).tick = some (.holding file stage files))
    (hstarts : ∀ job, stage = .starting job → s.starts event = some job) :
    Moved s event (s.advanceHold q file files stage) := by
  have hq : s.holds q = some (file, stage.phase) := holds_of_tick htick
  unfold FileQueueState.advanceHold
  cases stage with
  | claimed => exact .read hq (reads_afterRead s q file) rfl rfl (holds_setTick s q _) rfl rfl
  | dropping => exact .unlinked hq (.inl rfl) rfl rfl (holds_setTick _ q _) rfl rfl
  | returning =>
      obtain ⟨hfiles, hholds, hinvocations, hserial⟩ := moveBack_files s file
      refine .returned hq hfiles ?_ hinvocations hserial
      dsimp only
      rw [holds_setTick, hholds]
      rfl
  | patching job update =>
      dsimp only
      split
      · refine .kept ((sameFiles_setQueue ?_).trans (sameFiles_setTick ?_))
        · rfl
        · rw [holds_setQueue_of_tick rfl, hq, Option.bind_some]
          rw [TickStage.hold_holding, next_phase]
          rfl
      · refine .kept ((sameFiles_setQueue ?_).trans (sameFiles_setTick ?_))
        · rfl
        · rw [holds_setQueue_of_tick rfl, hq]
          rfl
  | persisting job update record =>
      have hwritten : SameFiles s { s with statuses := s.statuses.persist record } :=
        ⟨rfl, rfl, rfl, rfl, rfl⟩
      refine .kept (hwritten.trans (sameFiles_setTick ?_))
      rw [hwritten.holds, hq, Option.bind_some, TickStage.hold_holding, next_phase]
      rfl
  | starting job => exact .started (hstarts job rfl) hq rfl rfl (holds_setTick _ q _) rfl rfl
  | handling job invocation => exact .kept (.refl s)
  | rewriting job => exact .rewritten hq rfl rfl (holds_setTick _ q _) rfl rfl
  | unlinking rewritten =>
      refine .unlinked hq ?_ rfl rfl (holds_setTick _ q _) rfl rfl
      cases rewritten with
      | true => exact .inr (.inr rfl)
      | false => exact .inr (.inl rfl)

theorem moved_advanceTick (s : FileQueueState) (q pick : ℕ) :
    Moved s (.advanceTick q pick) (s.advanceTick q pick) := by
  unfold FileQueueState.advanceTick
  cases htick : (s.queues q).tick with
  | none => exact .kept (.refl s)
  | some stage =>
      cases stage with
      | listing =>
          refine .kept (sameFiles_setTick ?_)
          rw [holds_of_tick htick]
          rfl
      | taking files =>
          have hq : s.holds q = none := holds_of_tick htick
          cases files with
          | nil => exact .kept (sameFiles_setTick hq)
          | cons first rest =>
              dsimp only
              split
              · exact .kept (sameFiles_setTick hq)
              · split
                · exact .kept (.refl s)
                · split
                  · exact .kept (sameFiles_setTick hq)
                  · rename_i job hfile
                    exact .claimed hq hfile rfl rfl (holds_setTick _ q _) rfl rfl
      | holding file stage files =>
          refine moved_advanceHold htick fun job hstage => ?_
          unfold FileQueueState.starts
          dsimp only
          rw [htick, hstage]

/-- The job's next stage when the attempt has ended, the record of the invocation rewritten. -/
theorem moved_settled {event : FileQueueEvent} {file : String} {files : List String} {job : FileJob}
    {invocation : ℕ} {f : Invocation → Invocation} {outcome : JobOutcome}
    (hq : s.holds q = some (file, .active job invocation))
    (hended : ∀ availableAt : Timestamp,
      (∀ isRetryable message, outcome = .failure isRetryable message → job.shouldRetry isRetryable = true →
        Settles job (.retrying { job with availableAt }) f) ∧ Settles job .spent f) :
    Moved s event ((s.setInvocation invocation f).settled q file files job outcome) := by
  unfold FileQueueState.settled
  cases outcome with
  | success => exact .settled hq (hended 0).2 rfl rfl (holds_setTick _ q _) rfl rfl
  | failure isRetryable message =>
      dsimp only
      split
      · rename_i hretry
        have hshould : job.shouldRetry isRetryable = true := (Bool.and_eq_true_iff.mp hretry).1
        exact .settled hq ((hended _).1 isRetryable message rfl hshould) rfl rfl (holds_setTick _ q _) rfl rfl
      · exact .settled hq (hended 0).2 rfl rfl (holds_setTick _ q _) rfl rfl

theorem shouldRetry_iff (job : JobRecord) (isRetryable : Bool) :
    job.shouldRetry isRetryable = true ↔
      (job.attempts : ℤ) < job.maxAttempts ∧ job.retryable = true ∧ isRetryable = true := by
  unfold JobRecord.shouldRetry
  cases job.retryable <;> simp

theorem moved_settle (s : FileQueueState) (q : ℕ) (outcome : JobOutcome) :
    Moved s (.settle q outcome) (s.settle q outcome) := by
  unfold FileQueueState.settle
  split
  · rename_i file job invocation files htick
    refine moved_settled (holds_of_tick htick) fun availableAt => ⟨?_, ?_⟩
    · rintro isRetryable message rfl hretry
      obtain ⟨hleft, hretryable, -⟩ := (shouldRetry_iff _ _).mp hretry
      exact .retried availableAt hleft hretryable
    · cases outcome with
      | success => exact .ended _ (.inl rfl)
      | failure isRetryable message => exact .ended _ (.inr rfl)
  · exact .kept (.refl s)

theorem moved_timeout (s : FileQueueState) (q : ℕ) : Moved s (.timeout q) (s.timeout q) := by
  unfold FileQueueState.timeout
  split
  · rename_i file job invocation files htick
    split
    · exact .kept (.refl s)
    · split
      · exact .kept (.refl s)
      · refine moved_settled (holds_of_tick htick) fun availableAt => ⟨?_, .abandoned⟩
        intro isRetryable message _ hretry
        obtain ⟨hleft, hretryable, -⟩ := (shouldRetry_iff _ _).mp hretry
        exact .timedOut availableAt hleft hretryable
  · exact .kept (.refl s)

/-- One event moves at most one file or one invocation, in one of the ways of `Moved`. -/
theorem moved (s : FileQueueState) (event : FileQueueEvent) : Moved s event (s.step event) := by
  cases event with
  | enqueue id queue name options uuid =>
      unfold FileQueueState.step
      dsimp only
      split <;> exact .kept ⟨rfl, rfl, rfl, rfl, rfl⟩
  | process q name => exact .kept ((sameFiles_setQueue rfl).trans (sameFiles_ensureTimer _ q))
  | advanceEnqueue id => exact moved_advanceEnqueue s id
  | advanceRecovery id pick => exact moved_advanceRecovery s id pick
  | tick q =>
      unfold FileQueueState.step
      dsimp only
      split
      · exact .kept (sameFiles_startTick s q)
      · exact .kept (.refl s)
  | advanceTick q pick => exact moved_advanceTick s q pick
  | settle q outcome => exact moved_settle s q outcome
  | timeout q => exact moved_timeout s q
  | «return» invocation outcome =>
      refine @Moved.ended _ _ _ _ (FileQueueState.JobOutcome.state outcome) ?_ rfl rfl rfl rfl rfl
      cases outcome with
      | success => exact .inl rfl
      | failure isRetryable message => exact .inr rfl
  | close q =>
      exact .kept (sameFiles_setQueue (f := fun queue => { queue with closed := true, timer := false }) rfl)
  | crash q =>
      exact .crashed rfl rfl rfl (holds_setQueue s q fun queue => { defaults := queue.defaults }) rfl rfl
  | wait milliseconds => exact .kept ⟨rfl, rfl, rfl, rfl, rfl⟩

end Moves

end DealFlow360.Jobs
