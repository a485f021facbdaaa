import DealFlow360.Jobs.MemoryQueue

/-!
# Jobs that could be run

The drain stops at the first job whose type has no handler. So a job of another
type waits behind it, until a registration of the type in front or a new start
of the drain finds a job that can be run.

`Drained` says that no job that could be run is pending behind a drain that has
stopped. The statement is exact at every level:

- `drained_drainNow_iff` and `drained_advanceDrain_iff`: where a drain looks
  for its next job;
- `drained_step_iff`: for one event;
- `drained_iff`: for a run from an empty queue.

A step is blocked when the job at the head has no handler and some job behind
it has one; the condition is on the queue before the look.
-/

namespace DealFlow360.Jobs

namespace InMemoryJobQueue

/-- While no drain is running, no pending job has a handler. -/
def Drained (q : InMemoryJobQueue) : Prop :=
  q.drain = none → ∀ job ∈ q.pending, job.name ∉ q.handlers

/-- The jobs and the handlers among which a drain that is started now would look. -/
def startsAt (q : InMemoryJobQueue) (pending : List JobRecord) (handlers : List String) :
    Option (List JobRecord × List String) :=
  if q.drain.isSome then none else some (pending, handlers)

/-- The same for the next step of the drain that is running. -/
def continuesAt (q : InMemoryJobQueue) : DrainStage → Option (List JobRecord × List String)
  | .ending _ .success => some (q.pending, q.handlers)
  | .ending job (.failure isRetryable _) =>
      if job.shouldRetry isRetryable then none else some (q.pending, q.handlers)
  | .sleeping job until_ => if q.now < until_ then none else some (q.pending ++ [job], q.handlers)
  | _ => none

/-- The jobs and the handlers among which the drain looks for its next job in this step, if it does. -/
def looksAt (q : InMemoryJobQueue) : MemoryQueueEvent → Option (List JobRecord × List String)
  | .process name =>
      q.startsAt q.pending (if name ∈ q.handlers then q.handlers else q.handlers ++ [name])
  | .advance id => (Table.lookup EnqueueCall.id id q.calls).bind fun call =>
      match call.stage with
      | .recorded job => q.startsAt (q.pending ++ [job]) q.handlers
      | _ => none
  | .drain => q.drain.bind q.continuesAt
  | _ => none

/-- The job at the head has a handler, or no job has. -/
def HeadRuns (pending : List JobRecord) (handlers : List String) : Prop :=
  ∀ job ∈ pending.head?, job.name ∈ handlers ∨ ∀ other ∈ pending, other.name ∉ handlers

/-- Where the drain looks for its next job, the job at the head has a handler or no job has. -/
def Unblocked (q : InMemoryJobQueue) (event : MemoryQueueEvent) : Prop :=
  ∀ view ∈ q.looksAt event, HeadRuns view.1 view.2

instance (pending : List JobRecord) (handlers : List String) : Decidable (HeadRuns pending handlers) :=
  inferInstanceAs (Decidable (∀ job ∈ pending.head?,
    job.name ∈ handlers ∨ ∀ other ∈ pending, other.name ∉ handlers))

instance (q : InMemoryJobQueue) (event : MemoryQueueEvent) : Decidable (q.Unblocked event) :=
  inferInstanceAs (Decidable (∀ view ∈ q.looksAt event, HeadRuns view.1 view.2))

variable {q : InMemoryJobQueue}

theorem drained_next_iff (q : InMemoryJobQueue) : q.next.Drained ↔ HeadRuns q.pending q.handlers := by
  unfold next HeadRuns Drained
  cases hpending : q.pending with
  | nil =>
      exact iff_of_true (fun _ => nofun) nofun
  | cons job rest =>
      dsimp only
      split
      · rename_i hhandled
        refine iff_of_true nofun fun head hhead => .inl ?_
        rw [← Option.some.inj hhead]
        exact hhandled
      · rename_i hnot
        constructor
        · intro h head _
          exact .inr (h rfl)
        · intro h _
          rcases h job rfl with hhandled | hnone
          · exact absurd hhandled hnot
          · exact hnone

/-- While a drain runs, nothing is asked of the pending jobs. -/
theorem Drained.of_draining (h : q.drain.isSome = true) : q.Drained := by
  intro hidle
  rw [hidle] at h
  cases h

/-- A drain that is started leaves the queue drained if and only if the job at the head has a handler or
none has. -/
theorem drained_drainNow_iff (q : InMemoryJobQueue) :
    q.drainNow.Drained ↔ ∀ view ∈ q.startsAt q.pending q.handlers, HeadRuns view.1 view.2 := by
  unfold drainNow startsAt
  split
  · rename_i hdrain
    exact iff_of_true (.of_draining hdrain) nofun
  · rw [drained_next_iff]
    exact ⟨fun hruns view hview => Option.some.inj hview ▸ hruns, fun hruns => hruns _ rfl⟩

/-- A step of the drain leaves the queue drained if and only if, where it looks for its next job, the job
at the head has a handler or none has. -/
theorem drained_advanceDrain_iff {stage : DrainStage} (hdrain : q.drain = some stage) :
    q.advanceDrain.Drained ↔ ∀ view ∈ q.continuesAt stage, HeadRuns view.1 view.2 := by
  have hruns {pending : List JobRecord} {handlers : List String} :
      HeadRuns pending handlers ↔ ∀ view ∈ some (pending, handlers), HeadRuns view.1 view.2 :=
    ⟨fun hruns view hview => Option.some.inj hview ▸ hruns, fun hruns => hruns _ rfl⟩
  unfold advanceDrain
  rw [hdrain]
  cases stage with
  | starting job => exact iff_of_true nofun nofun
  | handling job => exact iff_of_true (.of_draining (by rw [hdrain]; rfl)) nofun
  | ending job outcome =>
      cases outcome with
      | success => exact (drained_next_iff _).trans hruns
      | failure isRetryable message =>
          dsimp only [continuesAt]
          split
          · exact iff_of_true nofun nofun
          · exact (drained_next_iff _).trans hruns
  | sleeping job until_ =>
      dsimp only [continuesAt]
      split
      · exact iff_of_true (.of_draining (by rw [hdrain]; rfl)) nofun
      · exact (drained_next_iff _).trans hruns

/-- A step keeps the queue drained if and only if it is not blocked. -/
theorem drained_step_iff (hq : q.Drained) (event : MemoryQueueEvent) :
    (q.step event).Drained ↔ q.Unblocked event := by
  cases event with
  | enqueue id name options uuid =>
      unfold step
      dsimp only
      split
      · exact iff_of_true hq nofun
      · exact iff_of_true hq nofun
  | advance id =>
      -- the table of calls says nothing about the jobs
      have hcalls (q' : InMemoryJobQueue) (calls : List EnqueueCall) :
          Drained { q' with calls } ↔ q'.Drained := Iff.rfl
      unfold step Unblocked looksAt
      dsimp only
      cases Table.lookup EnqueueCall.id id q.calls with
      | none => exact iff_of_true hq nofun
      | some call =>
          dsimp only
          rw [hcalls, Option.bind_some]
          unfold advance
          cases call.stage with
          | called =>
              refine iff_of_true ?_ nofun
              dsimp only
              split
              · exact hq
              · split
                · exact hq
                · split
                  · exact hq
                  · split <;> exact hq
          | checked => exact iff_of_true hq nofun
          | recorded job => exact drained_drainNow_iff _
          | answered jobId => exact iff_of_true hq nofun
          | refused => exact iff_of_true hq nofun
  | process name => exact drained_drainNow_iff _
  | settle outcome =>
      unfold step
      dsimp only
      split
      · exact iff_of_true nofun nofun
      · exact iff_of_true hq nofun
  | drain =>
      unfold step Unblocked looksAt
      dsimp only
      cases hdrain : q.drain with
      | none =>
          unfold advanceDrain
          rw [hdrain]
          exact iff_of_true hq nofun
      | some stage => exact drained_advanceDrain_iff hdrain
  | close => exact iff_of_true hq nofun
  | wait milliseconds => exact iff_of_true hq nofun

end InMemoryJobQueue

/-- In a run from an empty queue, the queue is drained at every point if and only if it is never blocked:
where the drain looks for its next job, the job at the head has a handler or no job has. -/
theorem drained_iff (q₀ : InMemoryJobQueue) (hfresh : q₀.Fresh) (events : List MemoryQueueEvent) :
    (∀ first rest, events = first ++ rest → (q₀.run first).Drained) ↔
      Machine.Meets InMemoryJobQueue.step InMemoryJobQueue.Unblocked q₀ events := by
  have hstart : q₀.Drained := by
    intro _ job hjob
    rw [hfresh.pending] at hjob
    cases hjob
  exact Machine.always_iff_of_exact (J := InMemoryJobQueue.Drained)
    (fun _ event hq => InMemoryJobQueue.drained_step_iff hq event) hstart

/-- Two jobs and the registration of the first one's handler: the drain runs it, and the other waits. -/
def handledFirst : List MemoryQueueEvent :=
  [.process "email.send", .enqueue 0 "email.send" {} "a", .advance 0, .advance 0, .advance 0,
    .enqueue 1 "pdf.generate" {} "b", .advance 1, .advance 1, .advance 1, .drain, .settle .success, .drain]

/-- The same registration, with the job that has no handler enqueued first. -/
def handledLast : List MemoryQueueEvent :=
  [.process "email.send", .enqueue 0 "pdf.generate" {} "a", .advance 0, .advance 0, .advance 0,
    .enqueue 1 "email.send" {} "b", .advance 1, .advance 1, .advance 1]

/-- The job with a handler is run although the other one has none. -/
theorem drained_handledFirst : (InMemoryJobQueue.run {} handledFirst).Drained :=
  (drained_iff {} ⟨rfl, rfl, rfl, rfl⟩ handledFirst).mpr (by decide) handledFirst [] rfl

/-- No drain is running, and a job with a handler is pending behind one that has none. -/
theorem runnable_job_starved :
    let q := InMemoryJobQueue.run {} handledLast
    q.drain = none ∧ ∃ job ∈ q.pending, job.name ∈ q.handlers := by
  decide

end DealFlow360.Jobs
