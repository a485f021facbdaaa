import DealFlow360.Jobs.FileOwners

/-!
# Finished jobs

A handler is called for a job only when no earlier call for it runs or has
returned, as long as the owner of a file is left alone and no earlier call goes
on after its time. A recovery does not leave it alone: it moves back every file
that it finds in `processing`, also those of the ticks of other processes.

The two conditions are those of the owner (`Undisturbed`) and of time: no
attempt that was given up goes on. What is carried from place to place is that
the earlier invocations of the job have failed. `finished_job_stays` says it of
every run without a crash and any number of processes; `running_job_run_again`
is a recovery that finds the file of a running job.
-/

namespace DealFlow360.Jobs

def FileQueueEvent.crashes : FileQueueEvent → Bool
  | crash _ => true
  | _ => false

/-- The id of the job that the event enqueues. -/
def FileQueueEvent.jobId : FileQueueEvent → Option String
  | enqueue _ _ _ options uuid => some (options.jobId.getD uuid)
  | _ => none

namespace FileQueueState

/-- Where the handler is called, no earlier invocation of the job runs or has returned successfully. -/
def CallsApart (s : FileQueueState) (event : FileQueueEvent) : Prop :=
  ∀ job, s.starts event = some job →
    ∀ invocation ∈ s.runs job, invocation.state ≠ .running ∧ invocation.state ≠ .succeeded

/-- Where the handler is called, the earlier invocations of the job that have timed out have failed by
now. -/
def AwaitsFailed (s : FileQueueState) (event : FileQueueEvent) : Prop :=
  ∀ job, s.starts event = some job →
    ∀ invocation ∈ s.runs job, invocation.abandoned = true → invocation.state = .failed

/-- The owner of a file is left alone, and so is a job whose handler goes on after its time. -/
def TakesTurns (s : FileQueueState) (event : FileQueueEvent) : Prop :=
  Undisturbed s event ∧ s.AwaitsFailed event

instance (s : FileQueueState) (event : FileQueueEvent) : Decidable (s.AwaitsFailed event) :=
  inferInstanceAs (Decidable (∀ job ∈ s.starts event, ∀ invocation ∈ s.runs job,
    invocation.abandoned = true → invocation.state = .failed))

instance (s : FileQueueState) (event : FileQueueEvent) : Decidable (s.CallsApart event) :=
  inferInstanceAs (Decidable (∀ job ∈ s.starts event, ∀ invocation ∈ s.runs job,
    invocation.state ≠ .running ∧ invocation.state ≠ .succeeded))

end FileQueueState

/-- All invocations of the job have failed, but for one that is awaited and those that have timed out. -/
def Over (runs : List Invocation) (place : Place) (_ : FileJob) : Prop :=
  ∀ invocation ∈ runs, place ≠ .active invocation.id →
    invocation.abandoned = true ∨ invocation.state = .failed

section Finished

variable {s : FileQueueState} {event : FileQueueEvent}

theorem carried_over (hcrash : ∀ q, event ≠ .crash q) : Carried Over s event where
  enqueued _ := nofun
  recovered _ _ hleft i hi _ := hleft i hi nofun
  read hwaiting i hi _ := hwaiting i hi nofun
  started := by
    intro q job hstarts hready i hi hactive
    rcases List.mem_append.mp hi with hi | hi
    · exact hready i hi nofun
    · cases List.mem_singleton.mp hi
      exact absurd rfl hactive
  settled := by
    intro runs n job phase f place settled hsettles hplace hactive i hi _
    obtain ⟨before, hbefore, rfl⟩ := List.mem_map.mp hi
    split
    · cases hsettles with
      | ended => cases hplace
      | abandoned => cases hplace
      | retried => exact .inr rfl
      | timedOut => exact .inl rfl
    · rename_i hne
      exact hactive before hbefore fun h => hne (Place.active.inj h).symm
  rewritten hretrying i hi _ := hretrying i hi nofun
  left _ hretrying i hi _ := hretrying i hi nofun
  ended := by
    intro runs place job n state hstate hover i hi hactive
    obtain ⟨before, hbefore, rfl⟩ := List.mem_map.mp hi
    have hother : place ≠ .active before.id := by
      rintro rfl
      refine hactive (congrArg Place.active ?_)
      split
      · dsimp only
        split <;> rfl
      · rfl
    have hbefore := hover before hbefore hother
    split
    · dsimp only
      split
      · rename_i habandoned
        exact .inl (Bool.and_eq_true_iff.mp habandoned).1
      · exact hbefore
    · exact hbefore
  crashed hevent := absurd hevent (hcrash _)
  orphaned hevent := absurd hevent (hcrash _)

/-- The names are right, every file has one owner at most, and its job's invocations are over. -/
structure AllOver (s : FileQueueState) : Prop where
  named : Named s
  exclusive : Exclusive s
  spent : ∀ file place job, (s.view file).At place job → Over (s.runs job) place job

theorem allOver_step (hs : AllOver s) (hcrash : ∀ q, event ≠ .crash q) (hturns : s.TakesTurns event) :
    AllOver (s.step event) ∧ s.CallsApart event := by
  refine ⟨⟨named_step hs.named event, exclusive_step hs.named hs.exclusive hturns.1,
    carried_step hs.named hs.exclusive hturns.1 (carried_over hcrash) hs.spent⟩, ?_⟩
  intro job hstarts i hi
  obtain ⟨q, held, hq⟩ := holds_of_starts hstarts
  have hfailed : i.state = .failed := by
    rcases hs.spent held .ready job (.held (holders_eq_some.mpr hq) rfl) i hi nofun with habandoned | hfailed
    · exact hturns.2 job hstarts i hi habandoned
    · exact hfailed
  rw [hfailed]
  exact ⟨nofun, nofun⟩

end Finished

/-- In every run from an empty queue without a crash, whatever the number of processes: as long as no
recovery moves the file of a tick that owns it back, no `enqueue` writes a file of that name, and the
invocations of a job that have timed out have failed when its handler is called again, no handler is called
for a job while an invocation of it runs or after one has returned successfully. -/
theorem finished_job_stays (s : FileQueueState) (hfresh : s.Fresh) (events : List FileQueueEvent)
    (hcrash : ∀ event ∈ events, event.crashes = false)
    (hturns : Machine.Meets FileQueueState.step FileQueueState.TakesTurns s events) :
    Machine.Meets FileQueueState.step FileQueueState.CallsApart s events := by
  have hstart : AllOver s := by
    refine ⟨named_of_fresh hfresh, exclusive_of_fresh hfresh, fun file place job hat => ?_⟩
    exact absurd (lies_of_at hat) (not_lies_of_fresh hfresh)
  have hquiet : Machine.Meets FileQueueState.step (fun _ event => ∀ q, event ≠ .crash q) s events := by
    refine Machine.meets_of_forall (fun event hevent _ q hq => ?_) s
    have hfalse := hcrash event hevent
    rw [hq] at hfalse
    cases hfalse
  exact Machine.meets_of_invariant (fun _ _ hs h => allOver_step hs h.1 h.2) hstart
    (Machine.meets_and.mpr ⟨hquiet, hturns⟩)

/-- An `enqueue` of process 0, up to the write of the job file. -/
def enqueueSteps (options : JobEnqueueOptions) : List FileQueueEvent :=
  [.enqueue 0 0 "email.send" options "a", .advanceEnqueue 0, .advanceEnqueue 0, .advanceEnqueue 0]

/-- The first process registers its handler; the recovery finds nothing, and the tick begins. -/
def register : List FileQueueEvent :=
  [.process 0 "email.send", .advanceRecovery 0 0, .advanceRecovery 0 0]

/-- The tick of the process takes the job from `pending` and calls its handler. -/
def attempt (q : ℕ) : List FileQueueEvent := List.replicate 6 (.advanceTick q 0)

/-- The handler fails; the tick writes the job for its next attempt, and the next tick begins. -/
def retry (q : ℕ) : List FileQueueEvent :=
  .settle q (.failure true "timeout") :: List.replicate 6 (.advanceTick q 0) ++ [.tick q]

/-- A second process registers a handler while the first one runs its own; its recovery moves the file. -/
def registerAgain : List FileQueueEvent :=
  [.process 1 "email.send", .advanceRecovery 1 0, .advanceRecovery 1 0, .advanceRecovery 1 0]

/-- One process tries a job twice, the second time after the first attempt has failed. -/
theorem failed_job_tried_again : Machine.Meets FileQueueState.step FileQueueState.CallsApart {}
    (enqueueSteps { attempts := some 2 } ++
      .advanceEnqueue 0 :: (register ++ attempt 0 ++ retry 0 ++ attempt 0)) := by
  refine finished_job_stays {} ⟨rfl, rfl, rfl, fun _ => ⟨rfl, rfl⟩, rfl, rfl, rfl⟩ _ (by decide) ?_
  have hidle (q : ℕ) : (FileQueueState.run {} (enqueueSteps { attempts := some 2 })).holds q = none := by
    cases q <;> rfl
  exact Machine.meets_and.mpr
    ⟨meets_undisturbed (by decide) hidle (meets_undisturbed_of_quiet (by decide)),
      by decide⟩

/-- Two processes run one job at a time: the recovery of the second moves the file that the first owns. -/
theorem running_job_run_again : ¬ ∀ events : List FileQueueEvent,
    (∀ event ∈ events, event.crashes = false) → (events.filterMap FileQueueEvent.jobId).Nodup →
      Machine.Meets FileQueueState.step FileQueueState.CallsApart {} events := by
  intro h
  have hmeets := h (enqueueSteps {} ++ .advanceEnqueue 0 :: (register ++ attempt 0 ++ registerAgain ++ attempt 1))
    (by decide) (by decide)
  revert hmeets
  decide

end DealFlow360.Jobs
