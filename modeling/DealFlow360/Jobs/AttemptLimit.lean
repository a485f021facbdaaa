import DealFlow360.Jobs.FinishedJobs

/-!
# The limit of attempts

The counter of a job's attempts goes up in memory and is written only with a
retry, so the file that is left in `processing` after a crash counts the
attempt that was cut off as not made. A job keeps to its limit as long as no
recovery moves such a file back. Crashes are allowed anywhere.

An event adds an invocation to the job whose handler it calls, and to no other
(`length_runs_of_moved`). Counting is by the place a job is at, with the rule
of the module about owners: in `pending` the written counter covers the
invocations so far, and the one that holds a job in memory covers one more.

- `attempts_limited`: in every run whose recoveries leave interrupted files
  alone, no job is run more often than its limit;
- `unretryable_job_retried`: the recovery after a crash runs a job a second
  time that has one attempt.
-/

namespace DealFlow360.Jobs

/-- How often the handler of the job may be called. -/
def FileJob.limit (job : FileJob) : ℤ := if job.retryable then max 1 job.maxAttempts else 1

theorem one_le_limit (job : FileJob) : 1 ≤ job.limit := by
  unfold FileJob.limit
  split
  · exact le_max_left _ _
  · exact le_refl 1

theorem limit_of_origin {job other : FileJob} (h : job.origin = other.origin) : job.limit = other.limit := by
  have hlimit := congrArg FileJob.limit h
  exact hlimit

theorem lt_limit_of_retryable {job : FileJob} (hretryable : job.retryable = true)
    (hleft : (job.attempts : ℤ) < job.maxAttempts) : (job.attempts : ℤ) < job.limit := by
  unfold FileJob.limit
  rw [if_pos hretryable]
  exact lt_max_of_lt_right hleft

namespace FileQueueState

/-- A recovery moves only a file whose counter has every call of the handler so far. -/
def RecoversCounted (s : FileQueueState) (event : FileQueueEvent) : Prop :=
  ∀ file, s.recovers event = some file → ∀ job, s.processing.read file = some job →
    (s.runs job).length ≤ job.attempts

/-- The owner of a file is left alone, and so is a file whose counter is behind. -/
def CountsCalls (s : FileQueueState) (event : FileQueueEvent) : Prop :=
  Undisturbed s event ∧ s.RecoversCounted event

instance (s : FileQueueState) (event : FileQueueEvent) : Decidable (s.RecoversCounted event) :=
  inferInstanceAs (Decidable (∀ file ∈ s.recovers event, ∀ job ∈ s.processing.read file,
    (s.runs job).length ≤ job.attempts))

/-- Every handler has been called for a job `max(1, maxAttempts)` times at most, and only once for a job that
is not retried. -/
def WithinLimit (s : FileQueueState) : Prop :=
  ∀ invocation ∈ s.invocations,
    ((s.runs invocation.job).length : ℤ) ≤ max 1 invocation.job.maxAttempts ∧
      (invocation.job.retryable = false → (s.runs invocation.job).length ≤ 1)

instance (s : FileQueueState) : Decidable s.WithinLimit := by
  unfold WithinLimit
  infer_instance

end FileQueueState

/-- The counter of a job has all its invocations, and leaves room for the next one where it waits. -/
def Counted (runs : List Invocation) : Place → FileJob → Prop
  | .waiting, job | .retrying, job => runs.length ≤ job.attempts ∧ (job.attempts : ℤ) < job.limit
  | .left, _ => True
  | .ready, job => runs.length < job.attempts ∧ (job.attempts : ℤ) ≤ job.limit
  | .active _, job => runs.length ≤ job.attempts ∧ (job.attempts : ℤ) ≤ job.limit

/-- A job that is in a file, or will be, has an attempt left. -/
structure HasAttempt (s : FileQueueState) : Prop where
  file : ∀ {file job}, (s.view file).pending = some job ∨ (s.view file).processing = some job →
    (job.attempts : ℤ) < job.limit
  retrying : ∀ {file q job}, (s.view file).holders q = some (.retrying job) → (job.attempts : ℤ) < job.limit

section Limit

variable {s : FileQueueState} {event : FileQueueEvent}

theorem attempts_of_writes (hbuilt : AllBuilt s) {record : JobRecord} (h : s.writes event = some record) :
    record.attempts = 0 := by
  obtain ⟨call, -, defaults, now, rfl⟩ := built_of_writes hbuilt h
  rfl

theorem hasAttempt_step (hs : Named s) (hbuilt : AllBuilt s) (h : HasAttempt s) (event : FileQueueEvent) :
    HasAttempt (s.step event) := by
  constructor
  · intro file job hfile
    have hturned := turned hs (moved s event) file
    rcases files_of_turned hturned hfile with hbefore | ⟨record, availableAt, hwrites, rfl⟩ | ⟨q, hq⟩
    · exact h.file hbefore
    · rw [attempts_of_writes hbuilt hwrites]
      exact Int.lt_of_lt_of_le Int.zero_lt_one (one_le_limit _)
    · exact h.retrying hq
  · intro file q job hq
    have hturned := turned hs (moved s event) file
    rcases retrying_of_turned hturned hq with hq | ⟨n, tried, f, -, hsettles⟩
    · exact h.retrying hq
    · cases hsettles with
      | retried availableAt hleft hretryable => exact lt_limit_of_retryable hretryable hleft
      | timedOut availableAt hleft hretryable => exact lt_limit_of_retryable hretryable hleft

theorem length_rewriteInvocation (n : ℕ) (f : Invocation → Invocation) (runs : List Invocation) :
    (rewriteInvocation n f runs).length = runs.length :=
  List.length_map ..

theorem carried_counted (hbuilt : AllBuilt s) (hattempt : HasAttempt s) (hcounts : s.CountsCalls event) :
    Carried Counted s event where
  enqueued hwrites := by
    refine ⟨Nat.zero_le _, ?_⟩
    rw [attempts_of_writes hbuilt hwrites]
    exact Int.lt_of_lt_of_le Int.zero_lt_one (one_le_limit _)
  recovered hrecovers hfile _ := ⟨hcounts.2 _ hrecovers _ hfile, hattempt.file (.inr hfile)⟩
  read {runs} {job} hwaiting := by
    obtain ⟨hcount, hleft⟩ := hwaiting
    exact ⟨Nat.lt_succ_of_le hcount, Int.add_one_le_of_lt hleft⟩
  started {q} {job} _ hready := by
    obtain ⟨hcount, hlimit⟩ := hready
    refine ⟨?_, hlimit⟩
    rw [List.length_append, List.length_singleton]
    exact hcount
  settled {runs} {n} {job} {phase} {f} {place} {settled} hsettles hplace hactive := by
    obtain ⟨hcount, -⟩ := hactive
    cases hsettles with
    | ended => cases hplace
    | abandoned => cases hplace
    | retried availableAt hleft hretryable | timedOut availableAt hleft hretryable =>
        cases hplace
        refine ⟨?_, lt_limit_of_retryable hretryable hleft⟩
        rw [length_rewriteInvocation]
        exact hcount
  rewritten hretrying := hretrying
  left _ _ := trivial
  ended {runs} {place} {job} {n} {state} _ hcounted := by
    unfold Counted at *
    rw [length_rewriteInvocation]
    exact hcounted
  crashed {runs} {place} {job} {q} _ hcounted := by
    unfold Counted at *
    rw [List.length_map]
    exact hcounted
  orphaned _ := trivial

/-- An event adds an invocation to the job whose handler it calls, and to no other. -/
theorem length_runs_of_moved {s' : FileQueueState} (h : Moved s event s') (job : FileJob) :
    (s'.runs job).length = (s.runs job).length ∨
      ∃ q file started, s.holds q = some (file, .ready started) ∧ started.origin = job.origin ∧
        (s'.runs job).length = (s.runs job).length + 1 := by
  unfold FileQueueState.runs
  rcases invocations_of_moved h with ⟨g, hg, hinvocations⟩ | ⟨q, file, started, -, hq, -, hinvocations⟩
  · refine .inl ?_
    rw [hinvocations, List.filter_map, List.length_map]
    refine congrArg List.length (List.filter_congr fun i _ => ?_)
    dsimp only [Function.comp]
    rw [(hg i).2]
  · rw [hinvocations, List.filter_append, List.length_append]
    by_cases horigin : started.origin = job.origin
    · refine .inr ⟨q, file, started, hq, horigin, ?_⟩
      rw [List.filter_singleton, decide_eq_true horigin]
      rfl
    · refine .inl ?_
      rw [List.filter_singleton, decide_eq_false horigin]
      rfl

/-- What the counters say, in every run that meets the condition. -/
structure AllCounted (s : FileQueueState) : Prop where
  named : Named s
  built : AllBuilt s
  hasAttempt : HasAttempt s
  exclusive : Exclusive s
  counted : ∀ file place job, (s.view file).At place job → Counted (s.runs job) place job
  within : ∀ job : FileJob, ((s.runs job).length : ℤ) ≤ job.limit

theorem allCounted_step (hs : AllCounted s) (hcounts : s.CountsCalls event) : AllCounted (s.step event) where
  named := named_step hs.named event
  built := built_step hs.built event
  hasAttempt := hasAttempt_step hs.named hs.built hs.hasAttempt event
  exclusive := exclusive_step hs.named hs.exclusive hcounts.1
  counted := carried_step hs.named hs.exclusive hcounts.1
    (carried_counted hs.built hs.hasAttempt hcounts) hs.counted
  within job := by
    rcases length_runs_of_moved (moved s event) job with hsame | ⟨q, file, started, hq, horigin, hmore⟩
    · rw [hsame]
      exact hs.within job
    · obtain ⟨hcount, hlimit⟩ := hs.counted file .ready started (.held (holders_eq_some.mpr hq) rfl)
      rw [runs_of_origin horigin] at hcount
      rw [hmore, ← limit_of_origin horigin]
      exact le_trans (Int.ofNat_le.mpr hcount) hlimit

theorem allCounted_of_fresh (h : s.Fresh) : AllCounted s where
  named := named_of_fresh h
  built := built_of_fresh h
  hasAttempt := by
    constructor
    · intro file job hfile
      rw [view_of_fresh h] at hfile
      rcases hfile with hfile | hfile <;> cases hfile
    · intro file q job hq
      exact absurd (.held hq rfl) (not_lies_of_fresh h)
  exclusive := exclusive_of_fresh h
  counted _ _ _ hat := absurd (lies_of_at hat) (not_lies_of_fresh h)
  within job := by
    unfold FileQueueState.runs
    rw [h.invocations]
    exact le_trans zero_le_one (one_le_limit job)

end Limit

/-- In every run from an empty queue, whatever the number of processes, the failures and the crashes: as long
as no recovery moves a file that a tick owns, or one whose counter lacks a call that was made, and no
`enqueue` writes a file of a name that a tick owns, no handler is called for a job more often than its limit
allows. -/
theorem attempts_limited (s : FileQueueState) (hfresh : s.Fresh) (events : List FileQueueEvent)
    (hcounts : Machine.Meets FileQueueState.step FileQueueState.CountsCalls s events) :
    (s.run events).WithinLimit := by
  have hend := Machine.invariant_of_meets (fun _ _ hs hcounts => allCounted_step hs hcounts)
    (allCounted_of_fresh hfresh) hcounts
  intro invocation _
  have hwithin := hend.within invocation.job
  unfold FileJob.limit at hwithin
  constructor
  · split at hwithin
    · exact hwithin
    · exact le_trans hwithin (le_max_left _ _)
  · intro hretryable
    rw [if_neg (by rw [hretryable]; exact Bool.false_ne_true)] at hwithin
    exact_mod_cast hwithin

/-- The process is killed and started again; the new one registers its handler and looks for the files that
are left. -/
def restart : List FileQueueEvent := [.crash 0, .process 0 "email.send", .advanceRecovery 1 0]

/-- A process is killed when it has taken a job; after the restart it is tried twice, as often as it may. -/
theorem interrupted_job_tried : FileQueueState.WithinLimit (.run {} (enqueueSteps { attempts := some 2 } ++
    .advanceEnqueue 0 :: (register ++ [.advanceTick 0 0, .advanceTick 0 0] ++ restart ++
      .advanceRecovery 1 0 :: (.advanceRecovery 1 0 :: attempt 0 ++ retry 0 ++ attempt 0)))) := by
  refine attempts_limited {} ⟨rfl, rfl, rfl, fun _ => ⟨rfl, rfl⟩, rfl, rfl, rfl⟩ _
    (Machine.meets_and.mpr ⟨?_, by decide⟩)
  have henqueued (q : ℕ) : (FileQueueState.run {} (enqueueSteps { attempts := some 2 })).holds q = none := by
    cases q <;> rfl
  have hrestarted (q : ℕ) : (FileQueueState.run (.run {} (enqueueSteps { attempts := some 2 } ++
      [.advanceEnqueue 0])) (register ++ [.advanceTick 0 0, .advanceTick 0 0] ++ restart)).holds q = none := by
    cases q <;> rfl
  exact meets_undisturbed (by decide) henqueued
    (meets_undisturbed (by decide) hrestarted (meets_undisturbed_of_quiet (by decide)))

/-- A process is killed in the handler of a job that must not be retried; after the restart the handler is
called again. -/
theorem unretryable_job_retried : ¬ ∀ events : List FileQueueEvent, (FileQueueState.run {} events).WithinLimit := by
  intro h
  have hwithin := h (enqueueSteps { retryable := some false } ++
    .advanceEnqueue 0 :: (register ++ attempt 0 ++ restart ++
      .advanceRecovery 1 0 :: (.advanceRecovery 1 0 :: attempt 0)))
  revert hwithin
  decide

end DealFlow360.Jobs
