import DealFlow360.Jobs.FileViews

/-!
# The owner of a job file

A tick owns the file it has renamed to `processing` until the job is in
`pending` again or done with. A file has one owner, and is not in `pending`
beside it, as long as no recovery moves an owned file back and no `enqueue`
writes one of its name. What can then be said about a job, by the place it is
at, is proved by the rule at the end.

The first half is ownership: `Exclusive` is kept by every event that does not
disown a held file, so between two such events a file has at most one owner.
The second half is a rule: what an event carries from place to place
(`carried_turned`), from the enqueue on, holds of every job wherever it is
(`carried_step`). The results on finished jobs and on attempts are instances of
that rule.
-/

namespace DealFlow360.Jobs

/-! ## One owner -/

/-- The file has at most one owner, and then it is not in `pending`; what is in `processing` is the job that
the owner has read. -/
structure FileView.Exclusive (v : FileView) : Prop where
  owner : ∀ {q p}, v.Owned q → v.Owned p → q = p
  unlisted : ∀ {q}, v.Owned q → v.pending = none
  contents : ∀ {q phase job before}, v.holders q = some phase → phase.job = some job →
    v.processing = some before → before.origin = job.origin

def Exclusive (s : FileQueueState) : Prop := ∀ file, (s.view file).Exclusive

/-- No recovery moves the file of a tick that owns it, and no `enqueue` writes one of its name. -/
structure Undisturbed (s : FileQueueState) (event : FileQueueEvent) : Prop where
  recovers : ∀ file, s.recovers event = some file → ∀ q, ¬ s.Owns q file
  writes : ∀ record, s.writes event = some record → ∀ q, ¬ s.Owns q (filePath record.id)

/-- The event neither moves a file back nor writes a new one. -/
abbrev Quiet (s : FileQueueState) (event : FileQueueEvent) : Prop :=
  s.recovers event = none ∧ s.writes event = none

section Owners

variable {s s' : FileQueueState} {event : FileQueueEvent} {file : String}

theorem owned_of_setHolder {v : FileView} {q p : ℕ} {hold : Option Phase}
    (h : (v.setHolder q hold).Owned p) :
    p = q ∧ (∃ phase, hold = some phase ∧ phase ≠ .cleaning) ∨ p ≠ q ∧ v.Owned p := by
  obtain ⟨phase, hp, hphase⟩ := h
  rcases holder_of_setHolder hp with ⟨hpq, hhold⟩ | ⟨hpq, hp⟩
  · exact .inl ⟨hpq, phase, hhold, hphase⟩
  · exact .inr ⟨hpq, phase, hp, hphase⟩

theorem owned_of_holder {v : FileView} {q : ℕ} {phase : Phase} (hq : v.holders q = some phase)
    (hphase : phase ≠ .cleaning) : v.Owned q :=
  ⟨phase, hq, hphase⟩

theorem Phase.ne_cleaning_of_job {phase : Phase} {job : FileJob} (h : phase.job = some job) :
    phase ≠ .cleaning := by
  rintro rfl
  cases h

/-- The owner goes on with the file, or gives it up; the directories are as before. -/
theorem FileView.Exclusive.setHolder {v : FileView} (hv : v.Exclusive) {q : ℕ} {hold : Option Phase}
    (hq : v.Owned q ∨ hold = none)
    (hcontents : ∀ phase job before, hold = some phase → phase.job = some job →
      v.processing = some before → before.origin = job.origin) : (v.setHolder q hold).Exclusive := by
  have howned {p : ℕ} (hp : (v.setHolder q hold).Owned p) : v.Owned p := by
    rcases owned_of_setHolder hp with ⟨rfl, phase, hphase, -⟩ | ⟨-, hp⟩
    · rcases hq with hq | hnone
      · exact hq
      · rw [hnone] at hphase
        cases hphase
    · exact hp
  constructor
  · intro p r hp hr
    exact hv.owner (howned hp) (howned hr)
  · intro p hp
    exact hv.unlisted (howned hp)
  · intro p phase job before hp hjob hbefore
    rcases holder_of_setHolder hp with ⟨-, hhold⟩ | ⟨-, hp⟩
    · exact hcontents phase job before hhold hjob hbefore
    · exact hv.contents hp hjob hbefore

/-- The file is gone from `processing`. -/
theorem FileView.Exclusive.unlink {v : FileView} (hv : v.Exclusive) :
    FileView.Exclusive { v with processing := none } := by
  constructor
  · exact hv.owner
  · exact hv.unlisted
  · intro p phase job before hp hjob hbefore
    cases hbefore

/-- A file without an owner. -/
theorem exclusive_of_free {v : FileView} (hfree : ∀ q, ¬ v.Owned q) : v.Exclusive := by
  constructor
  · intro q p hq
    exact absurd hq (hfree q)
  · intro q hq
    exact absurd hq (hfree q)
  · intro q phase job before hq hjob
    exact absurd (owned_of_holder hq (Phase.ne_cleaning_of_job hjob)) (hfree q)

/-- The owner gives the file up. -/
theorem free_of_disowned {v w : FileView} (hv : v.Exclusive) {q : ℕ} (hq : v.Owned q)
    (hw : w.holders = v.holders) {hold : Option Phase} (hhold : ∀ phase, hold = some phase → phase = .cleaning)
    (p : ℕ) : ¬ (w.setHolder q hold).Owned p := by
  intro hp
  rcases owned_of_setHolder hp with ⟨-, phase, hphase, hne⟩ | ⟨hpq, phase, hp, hne⟩
  · exact hne (hhold phase hphase)
  · rw [hw] at hp
    exact hpq (hv.owner (owned_of_holder hp hne) hq)

theorem exclusive_of_turned (hv : (s.view file).Exclusive) (hundisturbed : Undisturbed s event)
    (h : Turned s event s' file) : (s'.view file).Exclusive := by
  cases h with
  | kept hview | ended _ hview =>
      rw [hview]
      exact hv
  | crashed _ hview =>
      rw [hview]
      refine hv.setHolder (.inr rfl) fun _ _ _ hnone => ?_
      cases hnone
  | @enqueued record availableAt hwrites hfile hview =>
      rw [hview]
      refine exclusive_of_free fun q hq => hundisturbed.writes record hwrites q ?_
      rw [hfile]
      exact owned_iff.mp hq
  | recovered hrecovers _ hview =>
      rw [hview]
      exact exclusive_of_free fun q hq => hundisturbed.recovers file hrecovers q (owned_iff.mp hq)
  | @claimed q job hq hfile hview =>
      rw [hview]
      -- Only now the file has an owner: it was in `pending`.
      have hfree (p : ℕ) : ¬ (s.view file).Owned p := by
        intro hp
        rw [hv.unlisted hp] at hfile
        cases hfile
      have honly {p : ℕ} (hp : (FileView.setHolder { s.view file with
          pending := none, processing := some job } q (some .reading)).Owned p) : p = q := by
        rcases owned_of_setHolder hp with ⟨hpq, -⟩ | ⟨-, hp⟩
        · exact hpq
        · exact absurd hp (hfree p)
      constructor
      · intro p r hp hr
        rw [honly hp, honly hr]
      · intro p hp
        rfl
      · intro p phase other before hp hjob hbefore
        rcases holder_of_setHolder hp with ⟨-, hphase⟩ | ⟨-, hp⟩
        · cases hphase
          cases hjob
        · exact absurd (owned_of_holder hp (Phase.ne_cleaning_of_job hjob)) (hfree p)
  | @read q phase hq hphase hview =>
      rw [hview]
      refine hv.setHolder (.inl (owned_of_holder hq nofun)) ?_
      intro _ job before hread hjob hbefore
      cases Option.some.inj hread
      cases hphase with
      | dropped => cases hjob
      | returned => cases hjob
      | ready hfile =>
          cases Option.some.inj hjob
          have hsame := hfile.symm.trans hbefore
          cases Option.some.inj hsame
          rfl
  | @returned q hq hview =>
      rw [hview]
      exact exclusive_of_free (free_of_disowned hv (owned_of_holder hq nofun) rfl nofun)
  | @started q job hstarts hq hview =>
      rw [hview]
      refine hv.setHolder (.inl (owned_of_holder hq nofun)) ?_
      intro _ other before hphase hjob hbefore
      cases Option.some.inj hphase
      cases Option.some.inj hjob
      exact hv.contents hq rfl hbefore
  | @settled q job n phase f hq hsettles hview =>
      rw [hview]
      refine hv.setHolder (.inl (owned_of_holder hq nofun)) ?_
      intro _ other before hphase hjob hbefore
      cases Option.some.inj hphase
      rw [hsettles.origin hjob]
      exact hv.contents hq rfl hbefore
  | @rewritten q job hq hview =>
      rw [hview]
      refine exclusive_of_free (free_of_disowned hv (owned_of_holder hq nofun) rfl ?_)
      intro phase hphase
      exact (Option.some.inj hphase).symm
  | @unlinked q phase hq hphase hview =>
      rw [hview]
      refine hv.unlink.setHolder (.inr rfl) fun _ _ _ hnone => ?_
      cases hnone

theorem exclusive_step (hs : Named s) (hexclusive : Exclusive s) (hundisturbed : Undisturbed s event) :
    Exclusive (s.step event) :=
  fun file => exclusive_of_turned (hexclusive file) hundisturbed (turned hs (moved s event) file)

theorem exclusive_of_fresh (h : s.Fresh) : Exclusive s := by
  intro file
  rw [view_of_fresh h]
  exact exclusive_of_free nofun

theorem undisturbed_of_quiet (h : Quiet s event) : Undisturbed s event := by
  constructor
  · intro file hfile
    rw [h.1] at hfile
    cases hfile
  · intro record hrecord
    rw [h.2] at hrecord
    cases hrecord

theorem undisturbed_of_idle (h : ∀ q, s.holds q = none) : Undisturbed s event := by
  have hfree (q : ℕ) (file : String) : ¬ s.Owns q file := by
    rintro ⟨phase, hq, -⟩
    rw [h] at hq
    cases hq
  exact ⟨fun file _ q => hfree q file, fun record _ q => hfree q _⟩

theorem meets_undisturbed_of_quiet {events : List FileQueueEvent}
    (h : Machine.Meets FileQueueState.step Quiet s events) :
    Machine.Meets FileQueueState.step Undisturbed s events :=
  Machine.meets_mono (fun _ _ => undisturbed_of_quiet) h

/-- A run that is quiet up to an event before which no tick holds a file. -/
theorem meets_undisturbed {first rest : List FileQueueEvent}
    (hfirst : Machine.Meets FileQueueState.step Quiet s first) (hidle : ∀ q, (s.run first).holds q = none)
    (hrest : Machine.Meets FileQueueState.step Undisturbed ((s.run first).step event) rest) :
    Machine.Meets FileQueueState.step Undisturbed s (first ++ event :: rest) :=
  Machine.meets_append.mpr ⟨meets_undisturbed_of_quiet hfirst, undisturbed_of_idle hidle, hrest⟩

end Owners

/-! ## Places -/

/-- Where a job is that is being run or may be run again. -/
inductive Place where
  /-- In `pending`, or in `processing` with a tick that has not read it or will put it back. -/
  | waiting
  /-- In `processing`, without an owner. -/
  | left
  | ready
  | active (invocation : ℕ)
  | retrying
  deriving DecidableEq, Repr

def Phase.place : Phase → Option (Place × FileJob)
  | ready job => some (.ready, job)
  | active job n => some (.active n, job)
  | retrying job => some (.retrying, job)
  | _ => none

inductive FileView.At (v : FileView) : Place → FileJob → Prop
  | pending {job} (h : v.pending = some job) : v.At .waiting job
  | taken {q phase job} (hq : v.holders q = some phase) (hphase : phase = .reading ∨ phase = .returning)
      (h : v.processing = some job) : v.At .waiting job
  | left {job} (h : v.processing = some job) (hfree : ∀ q, ¬ v.Owned q) : v.At .left job
  | held {q phase place job} (hq : v.holders q = some phase) (hplace : phase.place = some (place, job)) :
      v.At place job

/-- What is said of a job, by its invocations and the place it is at, survives the event. -/
structure Carried (Good : List Invocation → Place → FileJob → Prop) (s : FileQueueState)
    (event : FileQueueEvent) : Prop where
  enqueued : ∀ {record : JobRecord} {availableAt : Timestamp}, s.writes event = some record →
    Good [] .waiting { record with availableAt, serial := s.nextSerial }
  recovered : ∀ {file job}, s.recovers event = some file → s.processing.read file = some job →
    Good (s.runs job) .left job → Good (s.runs job) .waiting job
  read : ∀ {runs job}, Good runs .waiting job → Good runs .ready { job with attempts := job.attempts + 1 }
  started : ∀ {q job}, s.starts event = some job → Good (s.runs job) .ready job →
    Good (s.runs job ++ [{ id := s.invocations.length, queue := q, job, startedAt := s.now }])
      (.active s.invocations.length) job
  settled : ∀ {runs n job phase f place settled}, Settles job phase f →
    phase.place = some (place, settled) → Good runs (.active n) job →
      Good (rewriteInvocation n f runs) place settled
  rewritten : ∀ {runs job}, Good runs .retrying job → Good runs .waiting job
  left : ∀ {runs job before}, before.origin = job.origin → Good runs .retrying job → Good runs .left before
  ended : ∀ {runs place job n state}, state = InvocationState.succeeded ∨ state = .failed →
    Good runs place job → Good (rewriteInvocation n
      (fun other => if other.abandoned && other.state = .running then { other with state } else other)
      runs) place job
  crashed : ∀ {runs place job q}, event = .crash q → Good runs place job → Good (runs.map fun invocation =>
    if invocation.queue = q ∧ invocation.state = .running then { invocation with state := .killed }
    else invocation) place job
  orphaned : ∀ {runs job q}, event = .crash q → Good runs .left job

section Places

variable {s s' : FileQueueState} {event : FileQueueEvent} {file : String}
  {Good : List Invocation → Place → FileJob → Prop}

theorem Phase.job_of_place {phase : Phase} {place : Place} {job : FileJob}
    (h : phase.place = some (place, job)) : phase.job = some job := by
  cases phase with
  | ready | active | retrying =>
      cases h
      rfl
  | _ => cases h

theorem lies_of_at {v : FileView} {place : Place} {job : FileJob} (h : v.At place job) : v.Lies job := by
  cases h with
  | pending h => exact .pending h
  | taken _ _ h => exact .processing h
  | left h _ => exact .processing h
  | held hq hplace => exact .held hq (Phase.job_of_place hplace)

/-- Where a file has an owner, its job is where the owner has it. -/
theorem at_of_owner {v : FileView} (hv : v.Exclusive) {q : ℕ} {phase : Phase}
    (hq : v.holders q = some phase) (hphase : phase ≠ .cleaning) {place : Place} {job : FileJob}
    (h : v.At place job) : phase.place = some (place, job) ∨ phase = .reading ∨ phase = .returning := by
  have howner := owned_of_holder hq hphase
  cases h with
  | pending h =>
      rw [hv.unlisted howner] at h
      cases h
  | taken hp htaken h =>
      have hne : ∀ {phase : Phase}, phase = .reading ∨ phase = .returning → phase ≠ .cleaning := by
        rintro _ (rfl | rfl) <;> nofun
      cases hv.owner howner (owned_of_holder hp (hne htaken))
      cases Option.some.inj (hq.symm.trans hp)
      exact .inr htaken
  | left _ hfree => exact absurd howner (hfree q)
  | held hp hplace =>
      cases hv.owner howner (owned_of_holder hp (Phase.ne_cleaning_of_job (Phase.job_of_place hplace)))
      cases Option.some.inj (hq.symm.trans hp)
      exact .inl hplace

/-- A job has no invocations before it is enqueued. -/
theorem runs_of_new (hs : Named s) {job : FileJob} (hjob : job.serial = s.nextSerial) : s.runs job = [] := by
  rw [List.eq_nil_iff_forall_not_mem]
  intro i hi
  rw [mem_runs] at hi
  have hserial := hs.serials i hi.1
  rw [origin_serial hi.2, hjob] at hserial
  exact Nat.lt_irrefl _ hserial

/-- A place that a view has after one hold has changed. -/
theorem at_of_setHolder {v : FileView} {q : ℕ} {hold : Option Phase} {place : Place} {job : FileJob}
    (h : (v.setHolder q hold).At place job) :
    v.At place job ∨
      (∃ phase, hold = some phase ∧ (phase.place = some (place, job) ∨
        place = .waiting ∧ (phase = .reading ∨ phase = .returning) ∧ v.processing = some job)) ∨
      place = .left ∧ v.processing = some job ∧ ∀ phase, hold = some phase → phase = .cleaning := by
  cases h with
  | pending h => exact .inl (.pending h)
  | taken hp htaken h =>
      rcases holder_of_setHolder hp with ⟨-, hhold⟩ | ⟨-, hp⟩
      · exact .inr (.inl ⟨_, hhold, .inr ⟨rfl, htaken, h⟩⟩)
      · exact .inl (.taken hp htaken h)
  | left h hfree =>
      by_cases howned : v.Owned q
      · refine .inr (.inr ⟨rfl, h, fun phase hphase => ?_⟩)
        by_contra hne
        exact hfree q ⟨phase, (Function.update_self ..).trans hphase, hne⟩
      · refine .inl (.left h fun p hp => ?_)
        obtain ⟨phase, hphase, hne⟩ := hp
        have hpq : p ≠ q := by
          rintro rfl
          exact howned ⟨phase, hphase, hne⟩
        refine hfree p ⟨phase, ?_, hne⟩
        exact (Function.update_of_ne hpq ..).trans hphase
  | held hp hplace =>
      rcases holder_of_setHolder hp with ⟨-, hhold⟩ | ⟨-, hp⟩
      · exact .inr (.inl ⟨_, hhold, .inl hplace⟩)
      · exact .inl (.held hp hplace)

/-- A place that a view has after the file in `pending` has changed, or the one in `processing` is gone. -/
theorem at_of_files {v w : FileView} {place : Place} {job : FileJob} (h : w.At place job)
    (hholders : w.holders = v.holders) (hprocessing : w.processing = none ∨ w.processing = v.processing) :
    place = .waiting ∧ w.pending = some job ∨ v.At place job := by
  have hsame (h : w.processing = some job) : v.processing = some job := by
    rcases hprocessing with hnone | hsame
    · rw [hnone] at h
      cases h
    · exact hsame ▸ h
  cases h with
  | pending h => exact .inl ⟨rfl, h⟩
  | taken hq htaken h => exact .inr (.taken (hholders ▸ hq) htaken (hsame h))
  | left h hfree =>
      refine .inr (.left (hsame h) fun q hq => hfree q ?_)
      obtain ⟨phase, hq, hne⟩ := hq
      exact ⟨phase, hholders ▸ hq, hne⟩
  | held hq hplace => exact .inr (.held (hholders ▸ hq) hplace)

/-- What an event carries from place to place holds at every place of the file after it. -/
theorem carried_turned (hs : Named s) (hexclusive : Exclusive s) (hundisturbed : Undisturbed s event)
    (hcarried : Carried Good s event) (hgood : ∀ place job, (s.view file).At place job → Good (s.runs job) place job)
    (h : Turned s event s' file) {place : Place} {job : FileJob} (hat : (s'.view file).At place job) :
    Good (s'.runs job) place job := by
  have hv := hexclusive file
  have hv' := exclusive_of_turned hv hundisturbed h
  cases h with
  | kept hview hruns =>
      rw [hview] at hat
      rw [hruns job (hs.file (lies_of_at hat))]
      exact hgood place job hat
  | ended hstate hview hruns =>
      rw [hview] at hat
      rw [hruns]
      exact hcarried.ended hstate (hgood place job hat)
  | crashed hevent hview hruns =>
      rw [hview] at hat
      rw [hruns]
      rcases at_of_setHolder hat with hat | ⟨phase, hnone, -⟩ | ⟨rfl, -, -⟩
      · exact hcarried.crashed hevent (hgood place job hat)
      · cases hnone
      · exact hcarried.orphaned hevent
  | enqueued hwrites hfile hview hserial hruns =>
      rw [hview] at hat
      rw [hruns]
      rcases at_of_files (v := s.view file) hat rfl (.inr rfl) with ⟨rfl, hpending⟩ | hat
      · cases Option.some.inj hpending
        rw [runs_of_new hs rfl]
        exact hcarried.enqueued hwrites
      · exact hgood place job hat
  | recovered hrecovers hfile hview hruns =>
      rw [hview] at hat
      rw [hruns]
      rcases at_of_files (v := s.view file) hat rfl (.inl rfl) with ⟨rfl, hpending⟩ | hat
      · cases Option.some.inj hpending
        have hleft : (s.view file).At .left job :=
          .left hfile fun q hq => hundisturbed.recovers file hrecovers q (owned_iff.mp hq)
        exact hcarried.recovered hrecovers hfile (hgood _ _ hleft)
      · exact hgood place job hat
  | @claimed q taken hq hfile hview hruns =>
      rw [hview] at hat
      rw [hruns]
      cases hat with
      | pending h => cases h
      | taken _ _ h =>
          cases Option.some.inj h
          exact hgood _ _ (.pending hfile)
      | left _ hfree =>
          refine absurd ?_ (hfree q)
          exact owned_of_holder (Function.update_self ..) nofun
      | held hp hplace =>
          rcases holder_of_setHolder hp with ⟨-, hphase⟩ | ⟨-, hp⟩
          · cases hphase
            cases hplace
          · exact hgood _ _ (.held hp hplace)
  | @read q phase hq hphase hview hruns =>
      rw [hview] at hat
      rw [hruns]
      have hreading {job : FileJob} (h : (s.view file).processing = some job) :=
        hgood _ _ (.taken hq (.inl rfl) h)
      rcases at_of_setHolder hat with hat | ⟨_, hread, hplace⟩ | ⟨rfl, -, hcleaning⟩
      · exact hgood place job hat
      · cases Option.some.inj hread
        rcases hplace with hplace | ⟨rfl, -, h⟩
        · cases hphase with
          | dropped => cases hplace
          | returned => cases hplace
          | ready hfile hreadable =>
              cases hplace
              exact hcarried.read (hreading hfile)
        · exact hreading h
      · have hne : phase ≠ .cleaning := by
          cases hphase <;> nofun
        exact absurd (hcleaning phase rfl) hne
  | @returned q hq hview hruns =>
      rw [hview] at hat
      rw [hruns]
      rcases at_of_setHolder hat with hat | ⟨phase, hnone, -⟩ | ⟨rfl, hnone, -⟩
      · rcases at_of_files (v := s.view file) hat rfl (.inl rfl) with ⟨rfl, hpending⟩ | hat
        · rcases Option.or_eq_some_iff.mp hpending with h | ⟨-, h⟩
          · exact hgood _ _ (.taken hq (.inr rfl) h)
          · exact hgood _ _ (.pending h)
        · exact hgood place job hat
      · cases hnone
      · cases hnone
  | @started q started hstarts hq hview hruns =>
      have hq' : (s'.view file).holders q = some (.active started s.invocations.length) := by
        rw [hview]
        exact Function.update_self ..
      rcases at_of_owner hv' hq' nofun hat with hplace | hphase | hphase
      · cases hplace
        rw [hruns]
        exact hcarried.started hstarts (hgood _ _ (.held hq rfl))
      · cases hphase
      · cases hphase
  | @settled q active n phase f hq hsettles hview hruns =>
      have hq' : (s'.view file).holders q = some phase := by
        rw [hview]
        exact Function.update_self ..
      have hphase : phase ≠ .cleaning ∧ phase ≠ .reading ∧ phase ≠ .returning := by
        cases hsettles <;> exact ⟨nofun, nofun, nofun⟩
      rcases at_of_owner hv' hq' hphase.1 hat with hplace | hreading | hreturning
      · have horigin : job.origin = active.origin := hsettles.origin (Phase.job_of_place hplace)
        rw [runs_of_origin horigin, hruns]
        exact hcarried.settled hsettles hplace (hgood _ _ (.held hq rfl))
      · exact absurd hreading hphase.2.1
      · exact absurd hreturning hphase.2.2
  | @rewritten q retried hq hview hruns =>
      rw [hview] at hat
      rw [hruns]
      rcases at_of_setHolder hat with hat | ⟨phase, hphase, hplace⟩ | ⟨rfl, hprocessing, -⟩
      · rcases at_of_files (v := s.view file) hat rfl (.inr rfl) with ⟨rfl, hpending⟩ | hat
        · cases Option.some.inj hpending
          exact hcarried.rewritten (hgood _ _ (.held hq rfl))
        · exact hgood place job hat
      · cases Option.some.inj hphase
        rcases hplace with hplace | ⟨-, h | h, -⟩
        · cases hplace
        · cases h
        · cases h
      · have horigin := hv.contents hq rfl hprocessing
        rw [runs_of_origin horigin]
        exact hcarried.left horigin (hgood _ _ (.held hq rfl))
  | unlinked hq hphase hview hruns =>
      rw [hview] at hat
      rw [hruns]
      rcases at_of_setHolder hat with hat | ⟨phase, hnone, -⟩ | ⟨rfl, hnone, -⟩
      · rcases at_of_files (v := s.view file) hat rfl (.inl rfl) with ⟨rfl, hpending⟩ | hat
        · exact hgood _ _ (.pending hpending)
        · exact hgood place job hat
      · cases hnone
      · cases hnone

/-- The rule for what is said of the jobs of all files. -/
theorem carried_step (hs : Named s) (hexclusive : Exclusive s) (hundisturbed : Undisturbed s event)
    (hcarried : Carried Good s event)
    (hgood : ∀ file place job, (s.view file).At place job → Good (s.runs job) place job) :
    ∀ file place job, ((s.step event).view file).At place job → Good ((s.step event).runs job) place job :=
  fun file _ _ hat => carried_turned hs hexclusive hundisturbed hcarried (hgood file)
    (turned hs (moved s event) file) hat

end Places

end DealFlow360.Jobs
