import DealFlow360.Jobs.FileMoves

/-!
# One job file

The two directories and the ticks, as far as they have to do with one file
name, and what an event does to them (`Turned`). In every run a job lies under
the name of its id.

`view` is what one file name sees of the state. One lemma says how each case of
`Moved` looks in the view of its own file (`Turned`), and that it looks like
nothing in that of another. The facts about a job are then induction on the run
with `Turned` as the step: it lies under the name of its id, was built from the
arguments of its call, and is awaited by at most the ticks that hold it.
-/

namespace DealFlow360.Jobs

/-! ## Directories -/

namespace JobDirectory

variable {directory : JobDirectory} {file other : String}

theorem read_write (directory : JobDirectory) (file : String) (job : FileJob) (other : String) :
    (directory.write file job).read other = if other = file then some job else directory.read other := by
  unfold read write
  rw [Table.lookup_upsert]
  by_cases h : other = file
  · rw [if_pos h.symm, if_pos h]
    rfl
  · rw [if_neg (Ne.symm h), if_neg h]

theorem read_unlink (directory : JobDirectory) (file other : String) :
    (directory.unlink file).read other = if other = file then none else directory.read other := by
  unfold read unlink
  rw [Table.lookup_erase]
  by_cases h : other = file
  · rw [if_pos h.symm, if_pos h]
    rfl
  · rw [if_neg (Ne.symm h), if_neg h]

end JobDirectory

/-! ## One file -/

/-- What the directories and the ticks have under one file name. -/
@[ext] structure FileView where
  pending : Option FileJob
  processing : Option FileJob
  holders : ℕ → Option Phase

namespace FileView

/-- The tick of the process holds the file, and has not put its job back. -/
def Owned (v : FileView) (q : ℕ) : Prop := ∃ phase, v.holders q = some phase ∧ phase ≠ .cleaning

/-- The job is in a file of this name, or a tick that holds the file has read it. -/
inductive Lies (v : FileView) (job : FileJob) : Prop
  | pending (h : v.pending = some job)
  | processing (h : v.processing = some job)
  | held {q phase} (hq : v.holders q = some phase) (hjob : phase.job = some job)

/-- The phase of the process becomes this one. -/
def setHolder (v : FileView) (q : ℕ) (phase : Option Phase) : FileView :=
  { v with holders := Function.update v.holders q phase }

end FileView

/-- The phase of a hold, if it is of this file. -/
def phaseOf (file : String) (hold : Option (String × Phase)) : Option Phase :=
  hold.bind fun held => if held.1 = file then some held.2 else none

theorem phaseOf_eq_some {file : String} {hold : Option (String × Phase)} {phase : Phase} :
    phaseOf file hold = some phase ↔ hold = some (file, phase) := by
  unfold phaseOf
  cases hold with
  | none => simp
  | some held =>
      obtain ⟨name, held⟩ := held
      by_cases h : name = file <;> simp [h]

@[simp] theorem phaseOf_none (file : String) : phaseOf file none = none := rfl

@[simp] theorem phaseOf_self (file : String) (phase : Phase) : phaseOf file (some (file, phase)) = some phase :=
  phaseOf_eq_some.mpr rfl

theorem phaseOf_of_ne {file other : String} (h : file ≠ other) (phase : Phase) :
    phaseOf other (some (file, phase)) = none := by
  simp [phaseOf, h]

namespace FileQueueState

def view (s : FileQueueState) (file : String) : FileView where
  pending := s.pending.read file
  processing := s.processing.read file
  holders := fun q => phaseOf file (s.holds q)

/-- The invocations of a job, from its `enqueue` on. -/
def runs (s : FileQueueState) (job : FileJob) : List Invocation :=
  s.invocations.filter fun invocation => invocation.job.origin = job.origin

end FileQueueState

section Views

variable {s s' : FileQueueState} {q : ℕ} {file : String} {phase : Phase}

theorem holders_eq_some : (s.view file).holders q = some phase ↔ s.holds q = some (file, phase) :=
  phaseOf_eq_some

theorem owned_iff : (s.view file).Owned q ↔ s.Owns q file := by
  unfold FileView.Owned FileQueueState.Owns
  simp only [holders_eq_some]

theorem view_of_holds {hold : Option (String × Phase)} (h : s'.holds = Function.update s.holds q hold)
    (file : String) :
    (s'.view file).holders = Function.update (s.view file).holders q (phaseOf file hold) := by
  have hcomp : (s'.view file).holders = phaseOf file ∘ s'.holds := rfl
  rw [hcomp, h, Function.comp_update]
  rfl

theorem sameFiles_view (h : SameFiles s s') (file : String) : s'.view file = s.view file := by
  unfold FileQueueState.view
  rw [h.pending, h.processing, h.holds]

theorem origin_id {job other : FileJob} (h : job.origin = other.origin) : job.id = other.id := by
  have := congrArg (fun origin : FileJob => origin.id) h
  exact this

theorem origin_serial {job other : FileJob} (h : job.origin = other.origin) : job.serial = other.serial := by
  have := congrArg FileJob.serial h
  exact this

@[simp] theorem origin_attempts (job : FileJob) (attempts : ℕ) :
    FileJob.origin { job with attempts } = job.origin := rfl

@[simp] theorem origin_availableAt (job : FileJob) (availableAt : Timestamp) :
    FileJob.origin { job with availableAt } = job.origin := rfl

theorem runs_of_origin {job other : FileJob} (h : job.origin = other.origin) (s : FileQueueState) :
    s.runs job = s.runs other := by
  unfold FileQueueState.runs
  rw [h]

theorem mem_runs {job : FileJob} {invocation : Invocation} :
    invocation ∈ s.runs job ↔ invocation ∈ s.invocations ∧ invocation.job.origin = job.origin := by
  unfold FileQueueState.runs
  rw [List.mem_filter, decide_eq_true_eq]

end Views

/-! ## What is true in every run -/

/-- A job lies under the name of its id, and its serial number has been given out; so have those of the
invocations, which are numbered in their order. -/
structure Named (s : FileQueueState) : Prop where
  file : ∀ {file job}, (s.view file).Lies job → filePath job.id = file
  serial : ∀ {file job}, (s.view file).Lies job → job.serial < s.nextSerial
  ids : s.invocations.map Invocation.id = List.range s.invocations.length
  serials : ∀ invocation ∈ s.invocations, invocation.job.serial < s.nextSerial
  active : ∀ {file q job n}, (s.view file).holders q = some (.active job n) →
    ∃ invocation ∈ s.invocations, invocation.id = n ∧ invocation.job = job

/-- What an event does to one file, the ticks that hold it, and the invocations of its job. -/
inductive Turned (s : FileQueueState) (event : FileQueueEvent) (s' : FileQueueState) (file : String) : Prop
  | kept (hview : s'.view file = s.view file)
      (hruns : ∀ job : FileJob, filePath job.id = file → s'.runs job = s.runs job)
  | ended {n state} (hstate : state = InvocationState.succeeded ∨ state = .failed)
      (hview : s'.view file = s.view file)
      (hruns : ∀ job, s'.runs job = rewriteInvocation n
        (fun other => if other.abandoned && other.state = .running then { other with state } else other)
        (s.runs job))
  | crashed {q} (hevent : event = .crash q) (hview : s'.view file = (s.view file).setHolder q none)
      (hruns : ∀ job, s'.runs job = (s.runs job).map fun invocation =>
        if invocation.queue = q ∧ invocation.state = .running then { invocation with state := .killed }
        else invocation)
  | enqueued {record : JobRecord} {availableAt} (hwrites : s.writes event = some record)
      (hfile : filePath record.id = file)
      (hview : s'.view file =
        { s.view file with pending := some { record with availableAt, serial := s.nextSerial } })
      (hserial : s'.nextSerial = s.nextSerial + 1) (hruns : ∀ job, s'.runs job = s.runs job)
      (hdue : s.dueAt event = some availableAt)
  | recovered {job} (hrecovers : s.recovers event = some file)
      (hfile : (s.view file).processing = some job)
      (hview : s'.view file = { s.view file with pending := some job, processing := none })
      (hruns : ∀ job, s'.runs job = s.runs job)
  | claimed {q job} (hq : (s.view file).holders q = none) (hfile : (s.view file).pending = some job)
      (hview : s'.view file = FileView.setHolder
        { s.view file with pending := none, processing := some job } q (some .reading))
      (hruns : ∀ job, s'.runs job = s.runs job)
  | read {q phase} (hq : (s.view file).holders q = some .reading) (hphase : Reads s file phase)
      (hview : s'.view file = (s.view file).setHolder q (some phase))
      (hruns : ∀ job, s'.runs job = s.runs job)
  | returned {q} (hq : (s.view file).holders q = some .returning)
      (hview : s'.view file = FileView.setHolder
        { s.view file with
          pending := (s.view file).processing.or (s.view file).pending
          processing := none } q none)
      (hruns : ∀ job, s'.runs job = s.runs job)
  | started {q job} (hstarts : s.starts event = some job) (hq : (s.view file).holders q = some (.ready job))
      (hview : s'.view file = (s.view file).setHolder q (some (.active job s.invocations.length)))
      (hruns : s'.runs job = s.runs job ++
        [{ id := s.invocations.length, queue := q, job, startedAt := s.now }])
  | settled {q job n phase f} (hq : (s.view file).holders q = some (.active job n))
      (hsettles : Settles job phase f) (hview : s'.view file = (s.view file).setHolder q (some phase))
      (hruns : s'.runs job = rewriteInvocation n f (s.runs job))
  | rewritten {q job} (hq : (s.view file).holders q = some (.retrying job))
      (hview : s'.view file = FileView.setHolder { s.view file with pending := some job } q (some .cleaning))
      (hruns : ∀ job, s'.runs job = s.runs job)
  | unlinked {q phase} (hq : (s.view file).holders q = some phase)
      (hphase : phase = .dropping ∨ phase = .spent ∨ phase = .cleaning)
      (hview : s'.view file = FileView.setHolder { s.view file with processing := none } q none)
      (hruns : ∀ job, s'.runs job = s.runs job)

section Turns

variable {s s' : FileQueueState} {event : FileQueueEvent} {file : String}

theorem runs_of_invocations (h : s'.invocations = s.invocations) (job : FileJob) :
    s'.runs job = s.runs job := by
  unfold FileQueueState.runs
  rw [h]

/-- A hold of another file, or none, before and after. -/
theorem holders_elsewhere {q : ℕ} {hold : Option (String × Phase)}
    (hholds : s'.holds = Function.update s.holds q hold)
    (hsame : phaseOf file hold = phaseOf file (s.holds q)) :
    (s'.view file).holders = (s.view file).holders := by
  rw [view_of_holds hholds, hsame]
  exact Function.update_eq_self q (s.view file).holders

/-- An event on the files of another name. -/
theorem view_elsewhere (hpending : s'.pending.read file = s.pending.read file)
    (hprocessing : s'.processing.read file = s.processing.read file)
    (hholders : (s'.view file).holders = (s.view file).holders) : s'.view file = s.view file :=
  FileView.ext hpending hprocessing hholders

theorem rewriteInvocation_runs {n : ℕ} {f : Invocation → Invocation} (hf : ∀ i, (f i).job = i.job)
    (h : s'.invocations = rewriteInvocation n f s.invocations) (job : FileJob) :
    s'.runs job = rewriteInvocation n f (s.runs job) := by
  unfold FileQueueState.runs rewriteInvocation at *
  rw [h, List.filter_map]
  refine congrArg (List.map _) (List.filter_congr fun i _ => ?_)
  dsimp only [Function.comp]
  split
  · rw [hf]
  · rfl

theorem Settles.keeps {job : FileJob} {phase : Phase} {f : Invocation → Invocation}
    (h : Settles job phase f) (i : Invocation) : (f i).id = i.id ∧ (f i).job = i.job := by
  cases h <;> exact ⟨rfl, rfl⟩

/-- Invocations have different numbers. -/
theorem Named.unique (hs : Named s) {i j : Invocation} (hi : i ∈ s.invocations) (hj : j ∈ s.invocations)
    (h : i.id = j.id) : i = j := by
  have hnodup : (s.invocations.map Invocation.id).Nodup := by
    rw [hs.ids]
    exact List.nodup_range
  exact List.inj_on_of_nodup_map hnodup hi hj h

/-- The invocation that a tick awaits is one of its job. -/
theorem Named.awaited (hs : Named s) {q n : ℕ} {job : FileJob}
    (hq : (s.view file).holders q = some (.active job n)) {i : Invocation} (hi : i ∈ s.invocations)
    (h : i.id = n) : i.job = job := by
  obtain ⟨other, hother, hid, hjob⟩ := hs.active hq
  rw [hs.unique hi hother (h.trans hid.symm), hjob]

theorem Named.held (hs : Named s) {q : ℕ} {phase : Phase} {job : FileJob}
    (hq : s.holds q = some (file, phase)) (hjob : phase.job = some job) : filePath job.id = file :=
  hs.file (.held (holders_eq_some.mpr hq) hjob)

/-- A job of another file has none of the invocations of this one. -/
theorem rewriteInvocation_elsewhere (hs : Named s) {q n : ℕ} {job : FileJob}
    (hq : (s.view file).holders q = some (.active job n)) (f : Invocation → Invocation) {other : FileJob}
    (hother : filePath other.id ≠ file) : rewriteInvocation n f (s.runs other) = s.runs other := by
  unfold rewriteInvocation
  conv_rhs => rw [← List.map_id (s.runs other)]
  refine List.map_congr_left fun i hi => ?_
  rw [mem_runs] at hi
  refine if_neg fun hid => hother ?_
  have hjob : i.job = job := hs.awaited hq hi.1 hid
  rw [← origin_id hi.2, hjob]
  exact hs.file (.held hq rfl)

/-- An event that leaves the files alone. -/
theorem view_setHolder {q : ℕ} {hold : Option (String × Phase)} (hpending : s'.pending = s.pending)
    (hprocessing : s'.processing = s.processing) (hholds : s'.holds = Function.update s.holds q hold)
    (file : String) : s'.view file = (s.view file).setHolder q (phaseOf file hold) := by
  refine FileView.ext ?_ ?_ (view_of_holds hholds file)
  · exact congrArg (JobDirectory.read · file) hpending
  · exact congrArg (JobDirectory.read · file) hprocessing

/-- An event that leaves the files alone, and the hold is of another one before and after. -/
theorem view_of_other {q : ℕ} {held : String} {before after : Phase} (hq : s.holds q = some (held, before))
    (hpending : s'.pending = s.pending) (hprocessing : s'.processing = s.processing)
    (hholds : s'.holds = Function.update s.holds q (some (held, after))) (hfile : held ≠ file) :
    s'.view file = s.view file := by
  refine view_elsewhere ?_ ?_ (holders_elsewhere hholds ?_)
  · rw [hpending]
  · rw [hprocessing]
  · rw [hq, phaseOf_of_ne hfile, phaseOf_of_ne hfile]

/-- What `Moved` lists, seen from one file. -/
theorem turned (hs : Named s) (h : Moved s event s') (file : String) : Turned s event s' file := by
  cases h with
  | kept h => exact .kept (sameFiles_view h file) fun job _ => runs_of_invocations h.invocations job
  | @enqueued record availableAt hwrites hpending hprocessing hholds hinvocations hserial hdue =>
      have hruns := runs_of_invocations hinvocations
      have hholders : (s'.view file).holders = (s.view file).holders := by
        unfold FileQueueState.view
        rw [hholds]
      by_cases hfile : filePath record.id = file
      · refine @Turned.enqueued _ _ _ _ _ availableAt hwrites hfile (FileView.ext ?_ ?_ hholders) hserial hruns hdue
        · show s'.pending.read file = _
          rw [hpending, JobDirectory.read_write, if_pos hfile.symm]
        · show s'.processing.read file = s.processing.read file
          rw [hprocessing]
      · refine .kept (view_elsewhere ?_ ?_ hholders) fun job _ => hruns job
        · rw [hpending, JobDirectory.read_write, if_neg (Ne.symm hfile)]
        · rw [hprocessing]
  | @recovered moved job hrecovers hmoved hpending hprocessing hholds hinvocations hserial =>
      have hruns := runs_of_invocations hinvocations
      have hholders : (s'.view file).holders = (s.view file).holders := by
        unfold FileQueueState.view
        rw [hholds]
      by_cases hfile : file = moved
      · subst hfile
        refine .recovered hrecovers hmoved (FileView.ext ?_ ?_ hholders) hruns
        · show s'.pending.read file = _
          rw [hpending, JobDirectory.read_write, if_pos rfl]
        · show s'.processing.read file = _
          rw [hprocessing, JobDirectory.read_unlink, if_pos rfl]
      · refine .kept (view_elsewhere ?_ ?_ hholders) fun job _ => hruns job
        · rw [hpending, JobDirectory.read_write, if_neg hfile]
        · rw [hprocessing, JobDirectory.read_unlink, if_neg hfile]
  | @claimed q taken job hq htaken hpending hprocessing hholds hinvocations hserial =>
      have hruns := runs_of_invocations hinvocations
      by_cases hfile : file = taken
      · subst hfile
        refine @Turned.claimed _ _ _ _ q job ?_ htaken (FileView.ext ?_ ?_ ?_) hruns
        · show phaseOf file (s.holds q) = none
          rw [hq, phaseOf_none]
        · show s'.pending.read file = _
          rw [hpending, JobDirectory.read_unlink, if_pos rfl]
          rfl
        · show s'.processing.read file = _
          rw [hprocessing, JobDirectory.read_write, if_pos rfl]
          rfl
        · rw [view_of_holds hholds, phaseOf_self]
          rfl
      · refine .kept (view_elsewhere ?_ ?_ (holders_elsewhere hholds ?_)) fun job _ => hruns job
        · rw [hpending, JobDirectory.read_unlink, if_neg hfile]
        · rw [hprocessing, JobDirectory.read_write, if_neg hfile]
        · rw [hq, phaseOf_of_ne (Ne.symm hfile), phaseOf_none]
  | @read q held phase hq hphase hpending hprocessing hholds hinvocations hserial =>
      have hruns := runs_of_invocations hinvocations
      by_cases hfile : held = file
      · subst hfile
        refine .read (holders_eq_some.mpr hq) hphase ?_ hruns
        rw [view_setHolder hpending hprocessing hholds, phaseOf_self]
      · exact .kept (view_of_other hq hpending hprocessing hholds hfile) fun job _ => hruns job
  | @returned q held hq hfiles hholds hinvocations hserial =>
      have hruns := runs_of_invocations hinvocations
      by_cases hfile : held = file
      · subst hfile
        have hholders : (s'.view held).holders = Function.update (s.view held).holders q none :=
          view_of_holds hholds held
        refine .returned (holders_eq_some.mpr hq) ?_ hruns
        rcases hfiles with ⟨hnone, hpending, hprocessing⟩ | ⟨job, hfile, hpending, hprocessing⟩
        · refine FileView.ext ?_ ?_ hholders
          · show s'.pending.read held = (s.processing.read held).or (s.pending.read held)
            rw [hpending, hnone, Option.none_or]
          · show s'.processing.read held = none
            rw [hprocessing, hnone]
        · refine FileView.ext ?_ ?_ hholders
          · show s'.pending.read held = (s.processing.read held).or _
            rw [hpending, JobDirectory.read_write, if_pos rfl, hfile, Option.some_or]
          · show s'.processing.read held = none
            rw [hprocessing, JobDirectory.read_unlink, if_pos rfl]
      · refine .kept (view_elsewhere ?_ ?_ (holders_elsewhere hholds ?_)) fun job _ => hruns job
        · rcases hfiles with ⟨-, hpending, -⟩ | ⟨job, -, hpending, -⟩
          · rw [hpending]
          · rw [hpending, JobDirectory.read_write, if_neg (Ne.symm hfile)]
        · rcases hfiles with ⟨-, -, hprocessing⟩ | ⟨job, -, -, hprocessing⟩
          · rw [hprocessing]
          · rw [hprocessing, JobDirectory.read_unlink, if_neg (Ne.symm hfile)]
        · rw [hq, phaseOf_of_ne hfile, phaseOf_none]
  | @started q held job hstarts hq hpending hprocessing hholds hinvocations hserial =>
      by_cases hfile : held = file
      · subst hfile
        refine .started hstarts (holders_eq_some.mpr hq) ?_ ?_
        · rw [view_setHolder hpending hprocessing hholds, phaseOf_self]
        · unfold FileQueueState.runs
          rw [hinvocations, List.filter_append, List.filter_singleton, decide_eq_true rfl]
          rfl
      · refine .kept (view_of_other hq hpending hprocessing hholds hfile) fun other hother => ?_
        have horigin : job.origin ≠ other.origin := by
          intro h
          refine hfile ?_
          rw [← hother, ← origin_id h]
          exact (hs.held hq rfl).symm
        unfold FileQueueState.runs
        rw [hinvocations, List.filter_append, List.filter_singleton, decide_eq_false horigin]
        exact List.append_nil _
  | @settled q held job n phase f hq hsettles hpending hprocessing hholds hinvocations hserial =>
      have hruns := rewriteInvocation_runs (fun i => (hsettles.keeps i).2) hinvocations
      by_cases hfile : held = file
      · subst hfile
        refine .settled (holders_eq_some.mpr hq) hsettles ?_ (hruns job)
        rw [view_setHolder hpending hprocessing hholds, phaseOf_self]
      · refine .kept (view_of_other hq hpending hprocessing hholds hfile) fun other hother => ?_
        rw [hruns]
        refine rewriteInvocation_elsewhere hs (holders_eq_some.mpr hq) f ?_
        rw [hother]
        exact Ne.symm hfile
  | @rewritten q held job hq hpending hprocessing hholds hinvocations hserial =>
      have hruns := runs_of_invocations hinvocations
      have hname : filePath job.id = held := hs.held hq rfl
      rw [hname] at hpending
      by_cases hfile : held = file
      · subst hfile
        refine .rewritten (holders_eq_some.mpr hq) (FileView.ext ?_ ?_ ?_) hruns
        · show s'.pending.read held = _
          rw [hpending, JobDirectory.read_write, if_pos rfl]
          rfl
        · exact congrArg (JobDirectory.read · held) hprocessing
        · rw [view_of_holds hholds, phaseOf_self]
          rfl
      · refine .kept (view_elsewhere ?_ ?_ (holders_elsewhere hholds ?_)) fun job _ => hruns job
        · rw [hpending, JobDirectory.read_write, if_neg (Ne.symm hfile)]
        · rw [hprocessing]
        · rw [hq, phaseOf_of_ne hfile, phaseOf_of_ne hfile]
  | @unlinked q held phase hq hphase hpending hprocessing hholds hinvocations hserial =>
      have hruns := runs_of_invocations hinvocations
      by_cases hfile : held = file
      · subst hfile
        refine .unlinked (holders_eq_some.mpr hq) hphase (FileView.ext ?_ ?_ (view_of_holds hholds held)) hruns
        · exact congrArg (JobDirectory.read · held) hpending
        · show s'.processing.read held = none
          rw [hprocessing, JobDirectory.read_unlink, if_pos rfl]
      · refine .kept (view_elsewhere ?_ ?_ (holders_elsewhere hholds ?_)) fun job _ => hruns job
        · rw [hpending]
        · rw [hprocessing, JobDirectory.read_unlink, if_neg (Ne.symm hfile)]
        · rw [hq, phaseOf_of_ne hfile, phaseOf_none]
  | @ended n state hstate hpending hprocessing hholds hinvocations hserial =>
      refine .ended hstate ?_ (rewriteInvocation_runs ?_ hinvocations)
      · unfold FileQueueState.view
        rw [hpending, hprocessing, hholds]
      · intro i
        split <;> rfl
  | @crashed q hevent hpending hprocessing hholds hinvocations hserial =>
      refine .crashed hevent (view_setHolder hpending hprocessing hholds file) fun job => ?_
      unfold FileQueueState.runs
      rw [hinvocations, List.filter_map]
      refine congrArg (List.map _) (List.filter_congr fun i _ => ?_)
      dsimp only [Function.comp]
      split <;> rfl

end Turns

section Names

variable {s s' : FileQueueState} {event : FileQueueEvent} {file : String}

theorem holder_of_setHolder {v : FileView} {q p : ℕ} {hold : Option Phase} {phase : Phase}
    (h : (v.setHolder q hold).holders p = some phase) :
    p = q ∧ hold = some phase ∨ p ≠ q ∧ v.holders p = some phase := by
  unfold FileView.setHolder at h
  by_cases hp : p = q
  · subst hp
    exact .inl ⟨rfl, by simpa using h⟩
  · exact .inr ⟨hp, by simpa [hp] using h⟩

theorem lies_of_setHolder {v : FileView} {q : ℕ} {hold : Option Phase} {job : FileJob}
    (h : (v.setHolder q hold).Lies job) :
    v.Lies job ∨ ∃ phase, hold = some phase ∧ phase.job = some job := by
  cases h with
  | pending h => exact .inl (.pending h)
  | processing h => exact .inl (.processing h)
  | held hq hjob =>
      rcases holder_of_setHolder hq with ⟨-, hhold⟩ | ⟨-, hq⟩
      · exact .inr ⟨_, hhold, hjob⟩
      · exact .inl (.held hq hjob)

/-- A job that a view has with other files than before is one of those files. -/
theorem lies_of_files {v w : FileView} {job : FileJob} (h : w.Lies job)
    (hholders : w.holders = v.holders) : v.Lies job ∨ w.pending = some job ∨ w.processing = some job := by
  cases h with
  | pending h => exact .inr (.inl h)
  | processing h => exact .inr (.inr h)
  | held hq hjob => exact .inl (.held (hholders ▸ hq) hjob)

theorem Settles.origin {job settled : FileJob} {phase : Phase} {f : Invocation → Invocation}
    (h : Settles job phase f) (hjob : phase.job = some settled) : settled.origin = job.origin := by
  cases h with
  | ended => cases hjob
  | abandoned => cases hjob
  | retried | timedOut =>
      cases hjob
      rfl

/-- A job of the file was there before, as it was enqueued, or it is the one enqueued now. -/
theorem lies_of_turned (h : Turned s event s' file) {job : FileJob} (hlies : (s'.view file).Lies job) :
    (∃ before, (s.view file).Lies before ∧ before.origin = job.origin) ∨
      filePath job.id = file ∧ job.serial = s.nextSerial ∧ s'.nextSerial = s.nextSerial + 1 := by
  cases h with
  | kept hview | ended _ hview =>
      rw [hview] at hlies
      exact .inl ⟨job, hlies, rfl⟩
  | crashed _ hview =>
      rw [hview] at hlies
      rcases lies_of_setHolder hlies with hlies | ⟨phase, hnone, -⟩
      · exact .inl ⟨job, hlies, rfl⟩
      · cases hnone
  | enqueued hwrites hfile hview hserial =>
      rw [hview] at hlies
      rcases lies_of_files (v := s.view file) hlies rfl with hlies | hpending | hprocessing
      · exact .inl ⟨job, hlies, rfl⟩
      · cases Option.some.inj hpending
        exact .inr ⟨hfile, rfl, hserial⟩
      · exact .inl ⟨job, .processing hprocessing, rfl⟩
  | recovered hrecovers hfile hview =>
      rw [hview] at hlies
      rcases lies_of_files (v := s.view file) hlies rfl with hlies | hpending | hprocessing
      · exact .inl ⟨job, hlies, rfl⟩
      · cases Option.some.inj hpending
        exact .inl ⟨_, .processing hfile, rfl⟩
      · cases hprocessing
  | claimed hq hfile hview =>
      rw [hview] at hlies
      rcases lies_of_setHolder hlies with hlies | ⟨phase, hphase, hjob⟩
      · rcases lies_of_files (v := s.view file) hlies rfl with hlies | hpending | hprocessing
        · exact .inl ⟨job, hlies, rfl⟩
        · cases hpending
        · cases Option.some.inj hprocessing
          exact .inl ⟨_, .pending hfile, rfl⟩
      · cases Option.some.inj hphase
        cases hjob
  | read hq hphase hview =>
      rw [hview] at hlies
      rcases lies_of_setHolder hlies with hlies | ⟨phase, hread, hjob⟩
      · exact .inl ⟨job, hlies, rfl⟩
      · cases Option.some.inj hread
        cases hphase with
        | dropped => cases hjob
        | returned => cases hjob
        | ready hfile =>
            cases Option.some.inj hjob
            exact .inl ⟨_, .processing hfile, rfl⟩
  | returned hq hview =>
      rw [hview] at hlies
      rcases lies_of_setHolder hlies with hlies | ⟨phase, hnone, -⟩
      · rcases lies_of_files (v := s.view file) hlies rfl with hlies | hpending | hprocessing
        · exact .inl ⟨job, hlies, rfl⟩
        · rcases Option.or_eq_some_iff.mp hpending with hfile | ⟨-, hfile⟩
          · exact .inl ⟨job, .processing hfile, rfl⟩
          · exact .inl ⟨job, .pending hfile, rfl⟩
        · cases hprocessing
      · cases hnone
  | started hstarts hq hview =>
      rw [hview] at hlies
      rcases lies_of_setHolder hlies with hlies | ⟨phase, hphase, hjob⟩
      · exact .inl ⟨job, hlies, rfl⟩
      · cases Option.some.inj hphase
        cases Option.some.inj hjob
        exact .inl ⟨_, .held hq rfl, rfl⟩
  | settled hq hsettles hview =>
      rw [hview] at hlies
      rcases lies_of_setHolder hlies with hlies | ⟨phase, hphase, hjob⟩
      · exact .inl ⟨job, hlies, rfl⟩
      · cases Option.some.inj hphase
        exact .inl ⟨_, .held hq rfl, (hsettles.origin hjob).symm⟩
  | rewritten hq hview =>
      rw [hview] at hlies
      rcases lies_of_setHolder hlies with hlies | ⟨phase, hphase, hjob⟩
      · rcases lies_of_files (v := s.view file) hlies rfl with hlies | hpending | hprocessing
        · exact .inl ⟨job, hlies, rfl⟩
        · cases Option.some.inj hpending
          exact .inl ⟨_, .held hq rfl, rfl⟩
        · exact .inl ⟨job, .processing hprocessing, rfl⟩
      · cases Option.some.inj hphase
        cases hjob
  | unlinked hq hphase hview =>
      rw [hview] at hlies
      rcases lies_of_setHolder hlies with hlies | ⟨phase, hnone, -⟩
      · rcases lies_of_files (v := s.view file) hlies rfl with hlies | hpending | hprocessing
        · exact .inl ⟨job, hlies, rfl⟩
        · exact .inl ⟨job, .pending hpending, rfl⟩
        · cases hprocessing
      · cases hnone

/-- A file was there before, or it is that of the job enqueued now, or a tick has written it for the next
attempt. -/
theorem files_of_turned (h : Turned s event s' file) {job : FileJob}
    (hfile : (s'.view file).pending = some job ∨ (s'.view file).processing = some job) :
    ((s.view file).pending = some job ∨ (s.view file).processing = some job) ∨
      (∃ (record : JobRecord) (availableAt : Timestamp), s.writes event = some record ∧
        job = { record with availableAt, serial := s.nextSerial }) ∨
      ∃ q, (s.view file).holders q = some (.retrying job) := by
  cases h with
  | kept hview | ended _ hview =>
      rw [hview] at hfile
      exact .inl hfile
  | crashed _ hview | read _ _ hview | started _ _ hview | settled _ _ hview =>
      rw [hview] at hfile
      exact .inl hfile
  | enqueued hwrites _ hview =>
      rw [hview] at hfile
      rcases hfile with hpending | hprocessing
      · exact .inr (.inl ⟨_, _, hwrites, (Option.some.inj hpending).symm⟩)
      · exact .inl (.inr hprocessing)
  | recovered _ hmoved hview =>
      rw [hview] at hfile
      rcases hfile with hpending | hprocessing
      · exact .inl (.inr (hmoved.trans hpending))
      · cases hprocessing
  | claimed _ htaken hview =>
      rw [hview] at hfile
      rcases hfile with hpending | hprocessing
      · cases hpending
      · exact .inl (.inl (htaken.trans hprocessing))
  | returned _ hview =>
      rw [hview] at hfile
      rcases hfile with hpending | hprocessing
      · rcases Option.or_eq_some_iff.mp hpending with h | ⟨-, h⟩
        · exact .inl (.inr h)
        · exact .inl (.inl h)
      · cases hprocessing
  | rewritten hq hview =>
      rw [hview] at hfile
      rcases hfile with hpending | hprocessing
      · cases Option.some.inj hpending
        exact .inr (.inr ⟨_, hq⟩)
      · exact .inl (.inr hprocessing)
  | unlinked _ _ hview =>
      rw [hview] at hfile
      rcases hfile with hpending | hprocessing
      · exact .inl (.inl hpending)
      · cases hprocessing

/-- A job that will be written again is one that was to be before, or one whose attempt has failed now. -/
theorem retrying_of_turned (h : Turned s event s' file) {q : ℕ} {job : FileJob}
    (hq : (s'.view file).holders q = some (.retrying job)) :
    (s.view file).holders q = some (.retrying job) ∨
      ∃ (n : ℕ) (tried : FileJob) (f : Invocation → Invocation),
        (s.view file).holders q = some (.active tried n) ∧ Settles tried (.retrying job) f := by
  cases h with
  | kept hview | ended _ hview =>
      rw [hview] at hq
      exact .inl hq
  | enqueued _ _ hview | recovered _ _ hview =>
      rw [hview] at hq
      exact .inl hq
  | crashed _ hview | returned _ hview | unlinked _ _ hview =>
      rw [hview] at hq
      rcases holder_of_setHolder hq with ⟨-, hnone⟩ | ⟨-, hq⟩
      · cases hnone
      · exact .inl hq
  | claimed _ _ hview | started _ _ hview | rewritten _ hview =>
      rw [hview] at hq
      rcases holder_of_setHolder hq with ⟨-, hphase⟩ | ⟨-, hq⟩
      · cases hphase
      · exact .inl hq
  | read _ hphase hview =>
      rw [hview] at hq
      rcases holder_of_setHolder hq with ⟨-, hread⟩ | ⟨-, hq⟩
      · cases Option.some.inj hread
        nomatch hphase
      · exact .inl hq
  | settled hactive hsettles hview =>
      rw [hview] at hq
      rcases holder_of_setHolder hq with ⟨rfl, hphase⟩ | ⟨-, hq⟩
      · cases Option.some.inj hphase
        exact .inr ⟨_, _, _, hactive, hsettles⟩
      · exact .inl hq

theorem nextSerial_of_moved (h : Moved s event s') : s.nextSerial ≤ s'.nextSerial := by
  cases h with
  | kept h => exact h.nextSerial.ge
  | enqueued _ _ _ _ _ hserial => exact hserial ▸ Nat.le_succ _
  | recovered _ _ _ _ _ _ hserial => exact hserial.ge
  | claimed _ _ _ _ _ _ hserial => exact hserial.ge
  | read _ _ _ _ _ _ hserial => exact hserial.ge
  | returned _ _ _ _ hserial => exact hserial.ge
  | started _ _ _ _ _ _ hserial => exact hserial.ge
  | settled _ _ _ _ _ _ hserial => exact hserial.ge
  | rewritten _ _ _ _ _ hserial => exact hserial.ge
  | unlinked _ _ _ _ _ _ hserial => exact hserial.ge
  | ended _ _ _ _ _ hserial => exact hserial.ge
  | crashed _ _ _ _ _ hserial => exact hserial.ge

/-- The records of the invocations keep their numbers and jobs, and one is added when a handler is
called. -/
theorem invocations_of_moved (h : Moved s event s') :
    (∃ g : Invocation → Invocation, (∀ i, (g i).id = i.id ∧ (g i).job = i.job) ∧
        s'.invocations = s.invocations.map g) ∨
      ∃ q held job, s.starts event = some job ∧ s.holds q = some (held, .ready job) ∧
        s'.nextSerial = s.nextSerial ∧ s'.invocations = s.invocations ++
          [{ id := s.invocations.length, queue := q, job, startedAt := s.now }] := by
  have hsame (hinvocations : s'.invocations = s.invocations) : ∃ g : Invocation → Invocation,
      (∀ i, (g i).id = i.id ∧ (g i).job = i.job) ∧ s'.invocations = s.invocations.map g :=
    ⟨id, fun i => ⟨rfl, rfl⟩, hinvocations.trans (List.map_id _).symm⟩
  cases h with
  | kept h => exact .inl (hsame h.invocations)
  | enqueued _ _ _ _ hinvocations => exact .inl (hsame hinvocations)
  | recovered _ _ _ _ _ hinvocations => exact .inl (hsame hinvocations)
  | claimed _ _ _ _ _ hinvocations => exact .inl (hsame hinvocations)
  | read _ _ _ _ _ hinvocations => exact .inl (hsame hinvocations)
  | returned _ _ _ hinvocations => exact .inl (hsame hinvocations)
  | started hstarts hq _ _ _ hinvocations hserial =>
      exact .inr ⟨_, _, _, hstarts, hq, hserial, hinvocations⟩
  | @settled q file job n phase f hq hsettles _ _ _ hinvocations =>
      refine .inl ⟨_, fun i => ?_, hinvocations⟩
      split
      · exact hsettles.keeps i
      · exact ⟨rfl, rfl⟩
  | rewritten _ _ _ _ hinvocations => exact .inl (hsame hinvocations)
  | unlinked _ _ _ _ _ hinvocations => exact .inl (hsame hinvocations)
  | ended _ _ _ _ hinvocations =>
      refine .inl ⟨_, fun i => ?_, hinvocations⟩
      split
      · dsimp only
        split <;> exact ⟨rfl, rfl⟩
      · exact ⟨rfl, rfl⟩
  | crashed _ _ _ _ hinvocations =>
      refine .inl ⟨_, fun i => ?_, hinvocations⟩
      split <;> exact ⟨rfl, rfl⟩

/-- A tick that awaits a handler did so before, or has called it now. -/
theorem active_of_turned (h : Turned s event s' file) {q n : ℕ} {job : FileJob}
    (hq : (s'.view file).holders q = some (.active job n)) :
    (s.view file).holders q = some (.active job n) ∨ ∃ i ∈ s'.invocations, i.id = n ∧ i.job = job := by
  cases h with
  | kept hview | ended _ hview => exact .inl (hview ▸ hq)
  | crashed _ hview | returned _ hview =>
      rw [hview] at hq
      rcases holder_of_setHolder hq with ⟨-, hnone⟩ | ⟨-, hq⟩
      · cases hnone
      · exact .inl hq
  | enqueued _ _ hview | recovered _ _ hview =>
      rw [hview] at hq
      exact .inl hq
  | claimed _ _ hview | rewritten _ hview | unlinked _ _ hview =>
      rw [hview] at hq
      rcases holder_of_setHolder hq with ⟨-, hphase⟩ | ⟨-, hq⟩
      · cases hphase
      · exact .inl hq
  | read _ hphase hview =>
      rw [hview] at hq
      rcases holder_of_setHolder hq with ⟨-, hread⟩ | ⟨-, hq⟩
      · cases Option.some.inj hread
        nomatch hphase
      · exact .inl hq
  | started _ _ hview hruns =>
      rw [hview] at hq
      rcases holder_of_setHolder hq with ⟨rfl, hphase⟩ | ⟨-, hq⟩
      · cases Option.some.inj hphase
        have hmem : { id := s.invocations.length, queue := q, job, startedAt := s.now } ∈ s'.runs job := by
          rw [hruns]
          exact List.mem_append_right _ (List.mem_singleton_self _)
        exact .inr ⟨_, (mem_runs.mp hmem).1, rfl, rfl⟩
      · exact .inl hq
  | settled _ hsettles hview =>
      rw [hview] at hq
      rcases holder_of_setHolder hq with ⟨-, hphase⟩ | ⟨-, hq⟩
      · cases Option.some.inj hphase
        nomatch hsettles
      · exact .inl hq

/-- The names stay right, whatever happens. -/
theorem named_step (hs : Named s) (event : FileQueueEvent) : Named (s.step event) := by
  have hmoved := moved s event
  have hmonotone := nextSerial_of_moved hmoved
  constructor
  · intro file job hlies
    rcases lies_of_turned (turned hs hmoved file) hlies with ⟨before, hbefore, horigin⟩ | ⟨hfile, -, -⟩
    · rw [← origin_id horigin]
      exact hs.file hbefore
    · exact hfile
  · intro file job hlies
    rcases lies_of_turned (turned hs hmoved file) hlies with
      ⟨before, hbefore, horigin⟩ | ⟨-, hserial, hnext⟩
    · rw [← origin_serial horigin]
      exact (hs.serial hbefore).trans_le hmonotone
    · rw [hserial, hnext]
      exact Nat.lt_succ_self _
  · rcases invocations_of_moved hmoved with ⟨g, hg, hinvocations⟩ | ⟨q, held, job, -, -, -, hinvocations⟩
    · rw [hinvocations, List.map_map, List.length_map, ← hs.ids]
      exact List.map_congr_left fun i _ => (hg i).1
    · rw [hinvocations, List.map_append, hs.ids, List.length_append, List.length_singleton, List.range_succ]
      rfl
  · rcases invocations_of_moved hmoved with ⟨g, hg, hinvocations⟩ | ⟨q, held, job, -, hq, -, hinvocations⟩
    · rw [hinvocations]
      intro i hi
      obtain ⟨before, hbefore, rfl⟩ := List.mem_map.mp hi
      rw [(hg before).2]
      exact (hs.serials before hbefore).trans_le hmonotone
    · rw [hinvocations]
      intro i hi
      rcases List.mem_append.mp hi with hi | hi
      · exact (hs.serials i hi).trans_le hmonotone
      · cases List.mem_singleton.mp hi
        exact (hs.serial (.held (holders_eq_some.mpr hq) rfl)).trans_le hmonotone
  · intro file q job n hq
    rcases active_of_turned (turned hs hmoved file) hq with hq | hstarted
    · obtain ⟨i, hi, hid, hjob⟩ := hs.active hq
      rcases invocations_of_moved hmoved with ⟨g, hg, hinvocations⟩ | ⟨p, held, other, -, -, -, hinvocations⟩
      · refine ⟨g i, ?_, (hg i).1.trans hid, (hg i).2.trans hjob⟩
        rw [hinvocations]
        exact List.mem_map_of_mem hi
      · refine ⟨i, ?_, hid, hjob⟩
        rw [hinvocations]
        exact List.mem_append_left _ hi
    · exact hstarted

end Names

/-! ## Jobs that are being enqueued -/

/-- The job that the call has built, if it has, is that of its own arguments. -/
def FileEnqueue.Built (call : FileEnqueue) : Prop :=
  ∀ job availableAt, call.stage = .recording job availableAt ∨ call.stage = .writing job availableAt →
    ∃ defaults now, job = createJob defaults call.name call.options call.uuid now

def AllBuilt (s : FileQueueState) : Prop := ∀ call ∈ s.enqueues, call.Built

section Built

variable {s : FileQueueState}

theorem built_of_stage {call : FileEnqueue} {stage : FileEnqueueStage}
    (h : ∀ job availableAt, stage ≠ .recording job availableAt ∧ stage ≠ .writing job availableAt) :
    FileEnqueue.Built { call with stage } := by
  rintro job availableAt (hstage | hstage)
  · exact absurd hstage (h job availableAt).1
  · exact absurd hstage (h job availableAt).2

theorem built_advanceEnqueue {call : FileEnqueue} (h : call.Built) (s : FileQueueState) :
    FileEnqueue.Built { call with stage := (s.advanceEnqueue call).2 } := by
  unfold FileQueueState.advanceEnqueue
  cases hcall : call.stage with
  | called =>
      refine built_of_stage fun job availableAt => ?_
      dsimp only
      split
      · exact ⟨nofun, nofun⟩
      · split
        · exact ⟨nofun, nofun⟩
        · dsimp only
          split <;> exact ⟨nofun, nofun⟩
  | probingPending | probingProcessing =>
      refine built_of_stage fun job availableAt => ?_
      dsimp only
      split <;> exact ⟨nofun, nofun⟩
  | passed =>
      rintro job availableAt (hstage | hstage)
      · cases hstage
        exact ⟨_, _, rfl⟩
      · cases hstage
  | recording job availableAt =>
      rintro other otherAt (hstage | hstage)
      · cases hstage
      · cases hstage
        exact h job availableAt (.inl hcall)
  | writing job availableAt | answered jobId | refused => exact built_of_stage fun _ _ => ⟨nofun, nofun⟩

theorem enqueues_startTick (s : FileQueueState) (q : ℕ) : (s.startTick q).enqueues = s.enqueues := by
  unfold FileQueueState.startTick
  split <;> rfl

theorem enqueues_moveBack (s : FileQueueState) (file : String) :
    (s.moveBack file).enqueues = s.enqueues := by
  unfold FileQueueState.moveBack
  split <;> rfl

theorem enqueues_ensureTimer (s : FileQueueState) (q : ℕ) : (s.ensureTimer q).enqueues = s.enqueues := by
  unfold FileQueueState.ensureTimer
  dsimp only
  split <;> rfl

theorem enqueues_advanceRecovery (s : FileQueueState) (recovery : Recovery) (pick : ℕ) :
    (s.advanceRecovery recovery pick).1.enqueues = s.enqueues := by
  unfold FileQueueState.advanceRecovery
  split
  · rfl
  · split
    · rfl
    · exact enqueues_startTick _ _
  · split
    · rfl
    · exact enqueues_moveBack s _

theorem enqueues_advanceHold (s : FileQueueState) (q : ℕ) (file : String) (files : List String)
    (stage : HoldStage) : (s.advanceHold q file files stage).enqueues = s.enqueues := by
  unfold FileQueueState.advanceHold
  cases stage with
  | returning => exact enqueues_moveBack s file
  | patching job update =>
      dsimp only
      split <;> rfl
  | _ => rfl

theorem enqueues_advanceTick (s : FileQueueState) (q pick : ℕ) :
    (s.advanceTick q pick).enqueues = s.enqueues := by
  unfold FileQueueState.advanceTick
  split
  · rfl
  · rfl
  · rfl
  · split
    · rfl
    · split
      · rfl
      · split <;> rfl
  · exact enqueues_advanceHold s q _ _ _

theorem enqueues_settled (s : FileQueueState) (q : ℕ) (file : String) (files : List String) (job : FileJob)
    (outcome : JobOutcome) : (s.settled q file files job outcome).enqueues = s.enqueues := by
  unfold FileQueueState.settled
  split
  · rfl
  · split <;> rfl

/-- Whatever happens, a call builds its job from its own arguments. -/
theorem built_step (hs : AllBuilt s) (event : FileQueueEvent) : AllBuilt (s.step event) := by
  have hsame {s' : FileQueueState} (h : s'.enqueues = s.enqueues) : AllBuilt s' := by
    intro call hcall
    rw [h] at hcall
    exact hs call hcall
  cases event with
  | enqueue id queue name options uuid =>
      unfold FileQueueState.step
      dsimp only
      split
      · exact hs
      · intro call hcall
        rcases Table.mem_upsert hcall with rfl | hcall
        · exact @built_of_stage { id, queue, name, options, uuid } _ fun _ _ => ⟨nofun, nofun⟩
        · exact hs call hcall
  | advanceEnqueue id =>
      unfold FileQueueState.step
      dsimp only
      split
      · exact hs
      · rename_i call hlookup
        intro other hother
        rcases Table.mem_upsert hother with rfl | hother
        · exact built_advanceEnqueue (hs call (Table.mem_of_lookup hlookup)) s
        · exact hs other hother
  | process q name => exact hsame (enqueues_ensureTimer _ q)
  | advanceRecovery id pick =>
      unfold FileQueueState.step
      dsimp only
      split
      · exact hs
      · exact hsame (enqueues_advanceRecovery s _ pick)
  | tick q =>
      unfold FileQueueState.step
      dsimp only
      split
      · exact hsame (enqueues_startTick s q)
      · exact hs
  | advanceTick q pick => exact hsame (enqueues_advanceTick s q pick)
  | settle q outcome =>
      refine hsame ?_
      unfold FileQueueState.step FileQueueState.settle
      dsimp only
      split
      · exact enqueues_settled _ q _ _ _ _
      · rfl
  | timeout q =>
      refine hsame ?_
      unfold FileQueueState.step FileQueueState.timeout
      dsimp only
      split
      · split
        · rfl
        · split
          · rfl
          · exact enqueues_settled _ q _ _ _ _
      · rfl
  | «return» | close | wait => exact hsame rfl
  | crash q =>
      intro call hcall
      exact hs call (List.mem_filter.mp hcall).1

/-- The job whose file is written is that of the call that writes it. -/
theorem built_of_writes (hs : AllBuilt s) {event : FileQueueEvent} {record : JobRecord}
    (h : s.writes event = some record) :
    ∃ call ∈ s.enqueues, ∃ defaults now, record = createJob defaults call.name call.options call.uuid now := by
  unfold FileQueueState.writes at h
  split at h
  · rename_i id
    cases hlookup : Table.lookup FileEnqueue.id id s.enqueues with
    | none =>
        rw [hlookup] at h
        cases h
    | some call =>
        rw [hlookup, Option.bind_some] at h
        split at h
        · rename_i job availableAt hstage
          cases Option.some.inj h
          have hcall := Table.mem_of_lookup hlookup
          obtain ⟨defaults, now, hrecord⟩ := hs call hcall record availableAt (.inr hstage)
          exact ⟨call, hcall, defaults, now, hrecord⟩
        · cases h
  · cases h

end Built

section Fresh

variable {s : FileQueueState}

theorem view_of_fresh (h : s.Fresh) (file : String) :
    s.view file = { pending := none, processing := none, holders := fun _ => none } := by
  refine FileView.ext ?_ ?_ ?_
  · show s.pending.read file = none
    rw [h.pending]
    rfl
  · show s.processing.read file = none
    rw [h.processing]
    rfl
  · funext q
    show phaseOf file (s.holds q) = none
    rw [holds_of_tick (h.idle q).1]
    rfl

theorem not_lies_of_fresh (h : s.Fresh) {file : String} {job : FileJob} : ¬ (s.view file).Lies job := by
  rw [view_of_fresh h]
  nofun

theorem named_of_fresh (h : s.Fresh) : Named s where
  file hlies := absurd hlies (not_lies_of_fresh h)
  serial hlies := absurd hlies (not_lies_of_fresh h)
  ids := by
    rw [h.invocations]
    rfl
  serials := by
    rw [h.invocations]
    nofun
  active {file} {q} {job} {n} hq := by
    rw [view_of_fresh h] at hq
    cases hq

theorem built_of_fresh (h : s.Fresh) : AllBuilt s := by
  intro call hcall
  rw [h.enqueues] at hcall
  cases hcall

end Fresh

end DealFlow360.Jobs
