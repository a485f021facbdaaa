import DealFlow360.Jobs.FileNames

/-!
# The worker

Any number of processes can enqueue jobs. Here one of them runs them: it alone
has handlers, a timer, ticks and recoveries, and no process is killed. A file
is then in `processing` only while the worker's tick holds it, and a job whose
handler was not called yet stays in one of the directories.

With one worker the file system has one reader of `processing`, so ownership
never changes hands behind its back (`worker_of_holder`), and a job not yet run
stays in one of the two directories (`stored_of_turned`). The processes that
only enqueue can be as many as one likes, and their steps fall anywhere between
the worker's.
-/

namespace DealFlow360.Jobs

/-- The process is not killed by the event, and only the worker registers a handler. -/
def FileQueueEvent.ordinary (worker : ℕ) : FileQueueEvent → Bool
  | crash _ => false
  | process q _ => q = worker
  | _ => true

/-- Only the worker has handlers and a timer, and only it runs ticks and recoveries. -/
structure FileQueueState.SoleWorker (s : FileQueueState) (worker : ℕ) : Prop where
  others : ∀ q, q ≠ worker →
    (s.queues q).handlers = [] ∧ (s.queues q).timer = false ∧ (s.queues q).tick = none
  recoveries : ∀ recovery ∈ s.recoveries, recovery.queue = worker

/-! ## What the worker alone has -/

section Worker

variable {s : FileQueueState} {worker : ℕ}

theorem soleWorker_setQueue (h : s.SoleWorker worker) (q : ℕ) (f : FileJobQueue → FileJobQueue)
    (hf : q ≠ worker → (f (s.queues q)).handlers = [] ∧ (f (s.queues q)).timer = false ∧
      (f (s.queues q)).tick = none) : (s.setQueue q f).SoleWorker worker := by
  refine ⟨fun p hp => ?_, h.recoveries⟩
  by_cases hpq : p = q
  · subst hpq
    rw [setQueue_self]
    exact hf hp
  · rw [setQueue_of_ne hpq]
    exact h.others p hp

theorem soleWorker_setTick (h : s.SoleWorker worker) (stage : Option TickStage) :
    (s.setTick worker stage).SoleWorker worker :=
  soleWorker_setQueue h worker _ fun hne => absurd rfl hne

theorem soleWorker_startTick (h : s.SoleWorker worker) : (s.startTick worker).SoleWorker worker := by
  unfold FileQueueState.startTick
  split
  · exact h
  · exact soleWorker_setTick h _

theorem soleWorker_moveBack (h : s.SoleWorker worker) (file : String) :
    (s.moveBack file).SoleWorker worker := by
  unfold FileQueueState.moveBack
  split
  · exact h
  · exact ⟨h.others, h.recoveries⟩

theorem soleWorker_ensureTimer (h : s.SoleWorker worker) (q : ℕ) : (s.ensureTimer q).SoleWorker worker := by
  unfold FileQueueState.ensureTimer
  dsimp only
  split
  · exact h
  · rename_i hstarts
    refine ⟨h.others, fun recovery hrecovery => ?_⟩
    rcases List.mem_append.mp hrecovery with hrecovery | hrecovery
    · exact h.recoveries recovery hrecovery
    · cases List.mem_singleton.mp hrecovery
      by_contra hne
      rw [(h.others q hne).1] at hstarts
      simp at hstarts

theorem soleWorker_advanceEnqueue (h : s.SoleWorker worker) (call : FileEnqueue) :
    (s.advanceEnqueue call).1.SoleWorker worker := by
  unfold FileQueueState.advanceEnqueue
  cases call.stage with
  | called =>
      dsimp only
      split
      · exact h
      · split
        · exact h
        · dsimp only
          refine soleWorker_setQueue h call.queue _ ?_
          exact h.others call.queue
  | passed =>
      dsimp only
      refine soleWorker_setQueue h call.queue _ ?_
      exact h.others call.queue
  | recording job availableAt => exact ⟨h.others, h.recoveries⟩
  | writing job availableAt =>
      refine soleWorker_ensureTimer ?_ call.queue
      exact ⟨h.others, h.recoveries⟩
  | _ => exact h

theorem soleWorker_advanceRecovery (h : s.SoleWorker worker) {recovery : Recovery} (hqueue : recovery.queue = worker)
    (pick : ℕ) : (s.advanceRecovery recovery pick).1.SoleWorker worker := by
  unfold FileQueueState.advanceRecovery
  rw [hqueue]
  split
  · exact h
  · split
    · exact h
    · refine soleWorker_startTick ?_
      exact soleWorker_setQueue h worker _ fun hne => absurd rfl hne
  · split
    · exact h
    · exact soleWorker_moveBack h _

theorem soleWorker_advanceHold (h : s.SoleWorker worker) (file : String) (files : List String) (stage : HoldStage) :
    (s.advanceHold worker file files stage).SoleWorker worker := by
  unfold FileQueueState.advanceHold
  cases stage with
  | claimed => exact soleWorker_setTick h _
  | dropping | unlinking | persisting | rewriting | starting =>
      refine soleWorker_setTick ?_ _
      exact ⟨h.others, h.recoveries⟩
  | returning => exact soleWorker_setTick (soleWorker_moveBack h file) _
  | patching job update =>
      dsimp only
      split <;> exact soleWorker_setTick (soleWorker_setQueue h worker _ fun hne => absurd rfl hne) _
  | handling => exact h

theorem soleWorker_advanceTick (h : s.SoleWorker worker) (q pick : ℕ) :
    (s.advanceTick q pick).SoleWorker worker := by
  by_cases hq : q = worker
  · subst hq
    unfold FileQueueState.advanceTick
    split
    · exact h
    · exact soleWorker_setTick h _
    · exact soleWorker_setTick h _
    · split
      · exact soleWorker_setTick h _
      · split
        · exact h
        · split
          · exact soleWorker_setTick h _
          · refine soleWorker_setTick ?_ _
            exact ⟨h.others, h.recoveries⟩
    · exact soleWorker_advanceHold h _ _ _
  · unfold FileQueueState.advanceTick
    rw [(h.others q hq).2.2]
    exact h

theorem soleWorker_settled (h : s.SoleWorker worker) (file : String) (files : List String) (job : FileJob)
    (outcome : JobOutcome) : (s.settled worker file files job outcome).SoleWorker worker := by
  unfold FileQueueState.settled
  split
  · exact soleWorker_setTick h _
  · split <;> exact soleWorker_setTick h _

theorem soleWorker_step (h : s.SoleWorker worker) {event : FileQueueEvent}
    (hordinary : event.ordinary worker = true) : (s.step event).SoleWorker worker := by
  cases event with
  | enqueue id queue name options uuid =>
      unfold FileQueueState.step
      dsimp only
      split
      · exact h
      · exact ⟨h.others, h.recoveries⟩
  | process q name =>
      have hq : q = worker := of_decide_eq_true hordinary
      refine soleWorker_ensureTimer ?_ q
      refine soleWorker_setQueue h q _ fun hne => absurd hq hne
  | advanceEnqueue id =>
      unfold FileQueueState.step
      dsimp only
      split
      · exact h
      · rename_i call hlookup
        have hadvanced := soleWorker_advanceEnqueue h call
        exact ⟨hadvanced.others, hadvanced.recoveries⟩
  | advanceRecovery id pick =>
      unfold FileQueueState.step
      dsimp only
      split
      · exact h
      · rename_i recovery hlookup
        have hqueue := h.recoveries recovery (Table.mem_of_lookup hlookup)
        refine ⟨(soleWorker_advanceRecovery h hqueue pick).others, fun other hother => ?_⟩
        dsimp only at hother
        split at hother
        · exact h.recoveries other (Table.mem_erase.mp hother).1
        · rcases Table.mem_upsert hother with rfl | hother
          · exact hqueue
          · exact h.recoveries other hother
  | tick q =>
      unfold FileQueueState.step
      dsimp only
      split
      · rename_i htimer
        by_cases hq : q = worker
        · subst hq
          exact soleWorker_startTick h
        · rw [(h.others q hq).2.1] at htimer
          cases htimer
      · exact h
  | advanceTick q pick => exact soleWorker_advanceTick h q pick
  | settle q outcome =>
      unfold FileQueueState.step FileQueueState.settle
      dsimp only
      split
      · rename_i htick
        by_cases hq : q = worker
        · subst hq
          refine soleWorker_settled ?_ _ _ _ _
          exact ⟨h.others, h.recoveries⟩
        · rw [(h.others q hq).2.2] at htick
          cases htick
      · exact h
  | timeout q =>
      unfold FileQueueState.step FileQueueState.timeout
      dsimp only
      split
      · rename_i htick
        by_cases hq : q = worker
        · subst hq
          split
          · exact h
          · split
            · exact h
            · refine soleWorker_settled ?_ _ _ _ _
              exact ⟨h.others, h.recoveries⟩
        · rw [(h.others q hq).2.2] at htick
          cases htick
      · exact h
  | close q =>
      unfold FileQueueState.step
      dsimp only
      refine soleWorker_setQueue h q _ fun hne => ?_
      exact ⟨(h.others q hne).1, rfl, (h.others q hne).2.2⟩
  | crash q => cases hordinary
  | «return» | wait => exact ⟨h.others, h.recoveries⟩

theorem FileQueueState.SoleWorker.holds (h : s.SoleWorker worker) {q : ℕ} (hq : q ≠ worker) :
    s.holds q = none :=
  holds_of_tick (h.others q hq).2.2

end Worker

/-! ## One file of the worker -/

/-- The handler has been called. -/
def Phase.called : Phase → Bool
  | active _ _ | retrying _ | spent | cleaning => true
  | _ => false

/-- A handler has been called for a job of this file name. -/
def FileQueueState.RanFile (s : FileQueueState) (file : String) : Prop :=
  ∃ invocation ∈ s.invocations, filePath invocation.job.id = file

/-- What is in `processing` is held by the worker, which drops no job; it has called the handler of a job that
it is done with, and a job that has not been run is due. -/
structure FileView.Orderly (v : FileView) (worker : ℕ) (now : Timestamp) (ran : Prop) : Prop where
  held : ∀ job, v.processing = some job → ∃ phase, v.holders worker = some phase
  dropping : v.holders worker = some .dropping → v.processing = none
  started : ∀ phase, v.holders worker = some phase → phase.called = true → ran
  due : ∀ job, v.pending = some job ∨ v.processing = some job → ran ∨ job.availableAt ≤ now

/-- There is a job in one of the two directories. -/
def FileView.Stored (v : FileView) : Prop := ∃ job, v.pending = some job ∨ v.processing = some job

section Files

variable {s s' : FileQueueState} {event : FileQueueEvent} {file : String} {worker : ℕ}

theorem ranFile_of_moved (h : Moved s event s') (hran : s.RanFile file) : s'.RanFile file := by
  obtain ⟨i, hi, hfile⟩ := hran
  rcases invocations_of_moved h with ⟨g, hg, hinvocations⟩ | ⟨q, held, job, -, -, -, hinvocations⟩
  · refine ⟨g i, ?_, ?_⟩
    · rw [hinvocations]
      exact List.mem_map_of_mem hi
    · rw [(hg i).2]
      exact hfile
  · refine ⟨i, ?_, hfile⟩
    rw [hinvocations]
    exact List.mem_append_left _ hi

theorem setHolder_self (v : FileView) (q : ℕ) (hold : Option Phase) : (v.setHolder q hold).holders q = hold :=
  Function.update_self ..

/-- The process that holds a file before or after a step is the worker. -/
theorem worker_of_holder (hsole : ∀ q, q ≠ worker → (s.view file).holders q = none) {q : ℕ} {phase : Phase}
    (hq : (s.view file).holders q = some phase) : q = worker := by
  by_contra hne
  rw [hsole q hne] at hq
  cases hq

theorem orderly_of_turned (hs : Named s) (hcrash : ∀ q, event ≠ .crash q) (h : Turned s event s' file)
    (hv : (s.view file).Orderly worker s.now (s.RanFile file)) (hnow : s.now ≤ s'.now)
    (hran : s.RanFile file → s'.RanFile file)
    (hsole : ∀ q, q ≠ worker → (s.view file).holders q = none)
    (hsole' : ∀ q, q ≠ worker → (s'.view file).holders q = none)
    (hreadable : ∀ job, s.processing.read file = some job → job.readable = true)
    (hdue : ∀ availableAt, s.dueAt event = some availableAt → availableAt ≤ s.now) :
    (s'.view file).Orderly worker s'.now (s'.RanFile file) := by
  have hbefore {job : FileJob} (hjob : (s.view file).pending = some job ∨ (s.view file).processing = some job) :
      s'.RanFile file ∨ job.availableAt ≤ s'.now :=
    (hv.due job hjob).imp hran fun hle => hle.trans hnow
  cases h with
  | kept hview | ended _ hview =>
      rw [hview]
      exact ⟨hv.held, hv.dropping, fun phase hphase hcalled => hran (hv.started phase hphase hcalled),
        fun job hjob => hbefore hjob⟩
  | crashed hevent => exact absurd hevent (hcrash _)
  | @enqueued record availableAt _ _ hview _ _ hat =>
      rw [hview]
      refine ⟨hv.held, hv.dropping, fun phase hphase hcalled => hran (hv.started phase hphase hcalled), ?_⟩
      rintro job (hpending | hprocessing)
      · cases Option.some.inj hpending
        exact .inr ((hdue availableAt hat).trans hnow)
      · exact hbefore (.inr hprocessing)
  | recovered _ hfile hview =>
      rw [hview]
      refine ⟨nofun, fun _ => rfl, fun phase hphase hcalled => hran (hv.started phase hphase hcalled), ?_⟩
      rintro job (hpending | hprocessing)
      · exact hbefore (.inr (hfile.trans hpending))
      · cases hprocessing
  | @claimed q taken _ hfile hview =>
      have hq : q = worker := by
        refine @worker_of_holder _ _ _ hsole' q .reading ?_
        rw [hview]
        exact setHolder_self _ _ _
      subst hq
      rw [hview]
      refine ⟨fun _ _ => ⟨.reading, setHolder_self _ _ _⟩, fun hdropping => ?_, fun phase hphase hcalled => ?_, ?_⟩
      · rw [setHolder_self] at hdropping
        cases hdropping
      · rw [setHolder_self] at hphase
        cases hphase
        cases hcalled
      · rintro job (hpending | hprocessing)
        · cases hpending
        · exact hbefore (.inl (hfile.trans hprocessing))
  | @read q phase hq hreads hview =>
      cases worker_of_holder hsole hq
      rw [hview]
      refine ⟨fun _ _ => ⟨phase, setHolder_self _ _ _⟩, fun hdropping => ?_, fun other hother hcalled => ?_,
        fun job hjob => hbefore hjob⟩
      · rw [setHolder_self] at hdropping
        cases hdropping
        cases hreads with
        | dropped hunreadable =>
            cases hfile : s.processing.read file with
            | none => exact hfile
            | some job =>
                have hread := hreadable job hfile
                rw [hunreadable job hfile] at hread
                cases hread
      · rw [setHolder_self] at hother
        cases hother
        cases hreads <;> cases hcalled
  | @returned q hq hview =>
      cases worker_of_holder hsole hq
      rw [hview]
      refine ⟨nofun, fun _ => rfl, fun phase hphase _ => ?_, ?_⟩
      · rw [setHolder_self] at hphase
        cases hphase
      · rintro job (hpending | hprocessing)
        · rcases Option.or_eq_some_iff.mp hpending with hfile | ⟨-, hfile⟩
          · exact hbefore (.inr hfile)
          · exact hbefore (.inl hfile)
        · cases hprocessing
  | @started q job _ hq hview hruns =>
      cases worker_of_holder hsole hq
      have hstarted : s'.RanFile file := by
        have hmem : { id := s.invocations.length, queue := worker, job, startedAt := s.now } ∈ s'.runs job := by
          rw [hruns]
          exact List.mem_append_right _ (List.mem_singleton_self _)
        exact ⟨_, (mem_runs.mp hmem).1, hs.file (.held hq rfl)⟩
      rw [hview]
      refine ⟨fun _ _ => ⟨_, setHolder_self _ _ _⟩, fun hdropping => ?_, fun _ _ _ => hstarted,
        fun _ _ => .inl hstarted⟩
      rw [setHolder_self] at hdropping
      cases hdropping
  | @settled q job n phase f hq hsettles hview hruns =>
      cases worker_of_holder hsole hq
      have hstarted := hran (hv.started _ hq rfl)
      rw [hview]
      refine ⟨fun _ _ => ⟨_, setHolder_self _ _ _⟩, fun hdropping => ?_, fun _ _ _ => hstarted,
        fun _ _ => .inl hstarted⟩
      rw [setHolder_self] at hdropping
      cases hdropping
      nomatch hsettles
  | @rewritten q job hq hview hruns =>
      cases worker_of_holder hsole hq
      have hstarted := hran (hv.started _ hq rfl)
      rw [hview]
      refine ⟨fun _ _ => ⟨_, setHolder_self _ _ _⟩, fun hdropping => ?_, fun _ _ _ => hstarted,
        fun _ _ => .inl hstarted⟩
      rw [setHolder_self] at hdropping
      cases hdropping
  | @unlinked q phase hq hphase hview hruns =>
      cases worker_of_holder hsole hq
      rw [hview]
      refine ⟨nofun, fun _ => rfl, fun other hother _ => ?_, ?_⟩
      · rw [setHolder_self] at hother
        cases hother
      · rintro job (hpending | hprocessing)
        · exact hbefore (.inl hpending)
        · cases hprocessing

/-- A job that has not been run stays in one of the directories. -/
theorem stored_of_turned (hcrash : ∀ q, event ≠ .crash q) (h : Turned s event s' file)
    (hv : (s.view file).Orderly worker s.now (s.RanFile file))
    (hsole : ∀ q, q ≠ worker → (s.view file).holders q = none) (hstored : (s.view file).Stored) :
    s.RanFile file ∨ (s'.view file).Stored := by
  obtain ⟨job, hjob⟩ := hstored
  cases h with
  | kept hview | ended _ hview =>
      rw [hview]
      exact .inr ⟨job, hjob⟩
  | crashed hevent => exact absurd hevent (hcrash _)
  | enqueued _ _ hview =>
      rw [hview]
      exact .inr ⟨_, .inl rfl⟩
  | recovered _ _ hview | rewritten _ hview =>
      rw [hview]
      exact .inr ⟨_, .inl rfl⟩
  | claimed _ _ hview =>
      rw [hview]
      exact .inr ⟨_, .inr rfl⟩
  | read _ _ hview | started _ _ hview | settled _ _ hview =>
      rw [hview]
      exact .inr ⟨job, hjob⟩
  | returned _ hview =>
      rw [hview]
      refine .inr ?_
      cases hprocessing : (s.view file).processing with
      | some other => exact ⟨other, .inl rfl⟩
      | none =>
          rw [hprocessing] at hjob
          rcases hjob with hpending | hnone
          · exact ⟨job, .inl hpending⟩
          · cases hnone
  | @unlinked q phase hq hphase hview =>
      cases worker_of_holder hsole hq
      rcases hphase with rfl | rfl | rfl
      · rw [hv.dropping hq] at hjob
        rcases hjob with hpending | hnone
        · rw [hview]
          exact .inr ⟨job, .inl hpending⟩
        · cases hnone
      · exact .inl (hv.started _ hq rfl)
      · exact .inl (hv.started _ hq rfl)

end Files

end DealFlow360.Jobs
