import DealFlow360.Documents.DocumentService
import DealFlow360.Lib.Machine

/-!
# A finished job and its document

An attempt that cannot claim the document returns all the same, as if the work
were done. So it relies on the attempt that has claimed it, and the document is
left as that one leaves it: in processing if it has crashed, threw before the
work began or could not write its failure, and as failed if it writes its
failure after all.

`Undisturbed` says of a step that nothing of the kind happens in it: the
handler that holds the claim does not crash before its result is written, does
not throw where the failure is not recorded, and records a failure only while
nobody relies on it. `Sound` is what every such step keeps (`sound_step`): a
document in processing has a handler that holds it, and one that somebody
relies on cannot be claimed again. So once a job was reported as completed and
no handler is left, its document is finished.
-/

namespace DealFlow360.Documents

/-! ## What the law is -/

/-- The saved extraction is that of the status. -/
def Document.finished (document : Document) : Bool :=
  document.extraction.any fun requiresReview => document.status = extractionStatus requiresReview

namespace AnalysisJob

variable (s : AnalysisJob)

def idle : Bool := s.attempts.all fun attempt => attempt.stage.over

/-- Once a job was reported as completed and no handler runs, its document is finished. -/
def FinishedOnce : Prop := s.completed = true → s.idle = true → s.document.finished = true

/-- Somebody relies on the document being worked on: an attempt was reported as completed, or may still be and is
about to return without the claim. -/
def reliedOn : Bool :=
  s.attempts.any fun attempt => !attempt.timedOut && (attempt.stage = .returned || attempt.stage = .rereading)

end AnalysisJob

/-! ## Who holds the document -/

/-- The handler has claimed the document. -/
def Stage.claims : Stage → Bool
  | claimed | requiringAi | loading | extractingText | recording | asking | saving _ | finishing _ | announcing _
  | failing _ => true
  | finding | claiming | rereading | returned | threw | crashed => false

/-- The handler has claimed the document, and its result is not written. -/
def Stage.holds : Stage → Bool
  | claimed | requiringAi | loading | extractingText | recording | asking | saving _ | finishing _
  | failing false => true
  | finding | claiming | rereading | announcing _ | failing true | returned | threw | crashed => false

/-- A failure here is not recorded: it is thrown outside the `try`, or by the write of the failure itself. -/
def Stage.strands : Stage → Bool
  | claimed | requiringAi | failing false => true
  | finding | claiming | rereading | loading | extractingText | recording | asking | saving _ | finishing _
  | announcing _ | failing true | returned | threw | crashed => false

/-- A step that does not fail records the failure here. -/
def Stage.recordsFailure : Stage → Bool
  | failing _ => true
  | finding | claiming | claimed | rereading | requiringAi | loading | extractingText | recording | asking | saving _
  | finishing _ | announcing _ | returned | threw | crashed => false

/-- The handler that holds the claim neither crashes nor throws without a record, and a failure is recorded only
while nobody relies on the document. -/
def AnalysisJob.Undisturbed (s : AnalysisJob) : AnalysisEvent → Prop
  | .step id outcome =>
      ∀ attempt ∈ s.running id,
        if outcome.fails then attempt.stage.strands = false
        else attempt.stage.recordsFailure = true → s.reliedOn = false
  | .crash id => ∀ attempt ∈ s.running id, attempt.stage.holds = false
  | .start _ | .timeout _ => True

instance (s : AnalysisJob) (event : AnalysisEvent) : Decidable (s.Undisturbed event) := by
  cases event <;> unfold AnalysisJob.Undisturbed <;> infer_instance

/-- What the document is while a handler stands there. -/
def Document.Fits (document : Document) : Stage → Prop
  | .claimed | .requiringAi | .loading | .extractingText | .recording | .asking | .saving _ =>
      document.status = .processing
  | .finishing requiresReview =>
      document.status = .processing ∧ document.extraction = some requiresReview
  | .announcing requiresReview =>
      document.status = extractionStatus requiresReview ∧ document.extraction = some requiresReview
  | .failing false => document.status = .processing
  | .failing true => document.finished = true
  | .finding | .claiming | .rereading | .returned | .threw | .crashed => True

/-- One handler holds the document at a time, and a document that is done is finished. -/
structure Held (s : AnalysisJob) : Prop where
  distinct : Table.Distinct Attempt.id s.attempts
  fits : ∀ attempt ∈ s.attempts, s.document.Fits attempt.stage
  alone : ∀ attempt ∈ s.attempts, ∀ other ∈ s.attempts, attempt.stage.claims = true →
    other.stage.claims = true → attempt.id = other.id
  done : s.document.done = true → s.document.finished = true

section Documents

variable {document : Document} {stage : Stage}

theorem finished_iff : document.finished = true ↔
    ∃ requiresReview, document.extraction = some requiresReview ∧
      document.status = extractionStatus requiresReview := by
  unfold Document.finished
  cases document.extraction with
  | none => simp
  | some requiresReview => simp

theorem fits_of_not_claims (h : stage.claims = false) : document.Fits stage := by
  cases stage with
  | finding | claiming | rereading | returned | threw | crashed => trivial
  | claimed | requiringAi | loading | extractingText | recording | asking | saving | finishing | announcing | failing =>
      cases h

/-- A document that a handler holds cannot be claimed. -/
theorem not_claimable (hfits : document.Fits stage) (hclaims : stage.claims = true) :
    document.claimable = false := by
  have hprocessing : document.status = .processing → document.claimable = false := by
    intro h
    unfold Document.claimable
    rw [h]
    rfl
  have hextraction : ∀ requiresReview, document.status = extractionStatus requiresReview →
      document.claimable = false := by
    intro requiresReview h
    unfold Document.claimable
    rw [h]
    cases requiresReview with
    | true => rfl
    | false => rfl
  cases stage with
  | finding | claiming | rereading | returned | threw | crashed => cases hclaims
  | claimed | requiringAi | loading | extractingText | recording | asking | saving => exact hprocessing hfits
  | finishing => exact hprocessing hfits.1
  | announcing => exact hextraction _ hfits.1
  | failing written =>
      cases written with
      | false => exact hprocessing hfits
      | true =>
          obtain ⟨requiresReview, -, hstatus⟩ := finished_iff.mp hfits
          exact hextraction requiresReview hstatus

/-- What a step leaves fits where the handler stands then, and is finished if it is done. -/
theorem advance_fits (outcome : Outcome) (hfits : document.Fits stage)
    (hdone : document.done = true → document.finished = true) :
    (document.advance outcome stage).1.Fits (document.advance outcome stage).2 ∧
      ((document.advance outcome stage).1.done = true → (document.advance outcome stage).1.finished = true) := by
  cases stage with
  | finding | rereading =>
      refine ⟨fits_of_not_claims ?_, hdone⟩
      unfold Document.advance
      dsimp only
      split_ifs <;> rfl
  | claiming =>
      unfold Document.advance
      dsimp only
      split_ifs
      · exact ⟨trivial, hdone⟩
      · exact ⟨rfl, fun h => by cases h⟩
      · exact ⟨trivial, hdone⟩
  | claimed | requiringAi =>
      unfold Document.advance
      dsimp only
      split_ifs
      · exact ⟨trivial, hdone⟩
      · exact ⟨hfits, hdone⟩
  | loading | extractingText | asking =>
      unfold Document.advance
      dsimp only
      split_ifs
      · exact ⟨hfits, hdone⟩
      · exact ⟨hfits, hdone⟩
  | recording =>
      unfold Document.advance
      dsimp only
      split_ifs
      · exact ⟨hfits, hdone⟩
      · exact ⟨rfl, fun h => by cases h⟩
  | saving requiresReview =>
      unfold Document.advance
      dsimp only
      split_ifs
      · exact ⟨hfits, hdone⟩
      · have hstatus : document.status = .processing := hfits
        refine ⟨⟨hstatus, rfl⟩, fun h => ?_⟩
        unfold Document.done at h
        rw [hstatus] at h
        cases h
  | finishing requiresReview =>
      unfold Document.advance
      dsimp only
      split_ifs
      · exact ⟨hfits.1, hdone⟩
      · exact ⟨⟨rfl, hfits.2⟩, fun _ => finished_iff.mpr ⟨requiresReview, hfits.2, rfl⟩⟩
  | announcing requiresReview =>
      unfold Document.advance
      dsimp only
      split_ifs
      · exact ⟨finished_iff.mpr ⟨requiresReview, hfits.2, hfits.1⟩, hdone⟩
      · exact ⟨trivial, hdone⟩
  | failing =>
      refine ⟨trivial, ?_⟩
      unfold Document.advance
      dsimp only
      split_ifs
      · exact hdone
      · exact fun h => by cases h
  | returned | threw | crashed => exact ⟨trivial, hdone⟩

/-- A handler writes while it holds the document, or to claim it. -/
theorem advance_writes (document : Document) (outcome : Outcome) (stage : Stage) :
    stage.claims = true ∨ document.claimable = true ∨
      (document.advance outcome stage).1 = document ∧ (document.advance outcome stage).2.claims = false := by
  cases stage with
  | claimed | requiringAi | loading | extractingText | recording | asking | saving | finishing | announcing | failing =>
      exact .inl rfl
  | claiming =>
      by_cases hclaimable : document.claimable = true
      · exact .inr (.inl hclaimable)
      · refine .inr (.inr ?_)
        unfold Document.advance
        dsimp only
        rw [if_neg hclaimable]
        split_ifs <;> exact ⟨rfl, rfl⟩
  | finding | rereading =>
      refine .inr (.inr ⟨rfl, ?_⟩)
      unfold Document.advance
      dsimp only
      split_ifs <;> rfl
  | returned | threw | crashed => exact .inr (.inr ⟨rfl, rfl⟩)

/-- Whoever works on a document that is in processing holds it after a step that does not strand it. -/
theorem advance_holds {outcome : Outcome} (hfits : document.Fits stage)
    (hstrands : outcome.fails = true → stage.strands = false)
    (hprocessing : (document.advance outcome stage).1.status = .processing) :
    (document.advance outcome stage).2.holds = true ∨ document.status = .processing ∧ stage.holds = false := by
  cases stage with
  | finding | rereading | returned | threw | crashed => exact .inr ⟨hprocessing, rfl⟩
  | claiming =>
      unfold Document.advance at hprocessing ⊢
      dsimp only at hprocessing ⊢
      split_ifs at hprocessing ⊢
      · exact .inr ⟨hprocessing, rfl⟩
      · exact .inl rfl
      · exact .inr ⟨hprocessing, rfl⟩
  | claimed | requiringAi =>
      have hworks : outcome.fails = false := Bool.eq_false_iff.mpr fun hfails => Bool.noConfusion (hstrands hfails)
      unfold Document.advance
      dsimp only
      rw [hworks]
      exact .inl rfl
  | loading | extractingText | recording | asking | saving =>
      unfold Document.advance
      dsimp only
      split_ifs
      · exact .inl rfl
      · exact .inl rfl
  | finishing requiresReview =>
      unfold Document.advance at hprocessing ⊢
      dsimp only at hprocessing ⊢
      split_ifs at hprocessing ⊢
      · exact .inl rfl
      · cases requiresReview with
        | true => cases hprocessing
        | false => cases hprocessing
  | announcing requiresReview =>
      have hstatus : document.status = extractionStatus requiresReview := hfits.1
      cases requiresReview with
      | true => cases hprocessing.symm.trans hstatus
      | false => cases hprocessing.symm.trans hstatus
  | failing written =>
      unfold Document.advance at hprocessing
      dsimp only at hprocessing
      split_ifs at hprocessing with hfails
      cases written with
      | false => cases hstrands hfails
      | true => exact .inr ⟨hprocessing, rfl⟩

/-- Only the record of a failure lets a document be claimed again. -/
theorem advance_claimable {outcome : Outcome} (hclaimable : document.claimable = false)
    (hrecords : outcome.fails = false → stage.recordsFailure = false) :
    (document.advance outcome stage).1.claimable = false := by
  cases stage with
  | finding | rereading | claimed | requiringAi | loading | extractingText | asking | announcing | returned | threw
  | crashed => exact hclaimable
  | claiming | recording =>
      unfold Document.advance
      dsimp only
      split_ifs
      all_goals first | exact hclaimable | rfl
  | saving requiresReview =>
      unfold Document.advance
      dsimp only
      split_ifs
      · exact hclaimable
      · exact hclaimable
  | finishing requiresReview =>
      unfold Document.advance
      dsimp only
      split_ifs
      · exact hclaimable
      · cases requiresReview with
        | true => rfl
        | false => rfl
  | failing written =>
      unfold Document.advance
      dsimp only
      cases hfails : outcome.fails with
      | true => exact hclaimable
      | false => cases hrecords hfails

/-- A handler that returns, or gives way to another, leaves a document that cannot be claimed; one that gave way has
found it so. -/
theorem advance_relies {outcome : Outcome} (hfits : document.Fits stage) (hstage : stage ≠ .rereading)
    (hrunning : stage.over = false)
    (hnext : (document.advance outcome stage).2 = .returned ∨ (document.advance outcome stage).2 = .rereading) :
    (document.advance outcome stage).1.claimable = false := by
  have hdone (h : document.done = true) : document.claimable = false := by
    unfold Document.done at h
    unfold Document.claimable
    cases hstatus : document.status <;> simp_all
  cases stage with
  | rereading => exact absurd rfl hstage
  | returned | threw | crashed => cases hrunning
  | finding =>
      unfold Document.advance at hnext ⊢
      dsimp only at hnext ⊢
      split_ifs at hnext with hfails hstatus
      · simp at hnext
      · exact hdone hstatus
      · simp at hnext
  | claiming =>
      unfold Document.advance at hnext ⊢
      dsimp only at hnext ⊢
      split_ifs at hnext ⊢ with hfails hclaimable
      · simp at hnext
      · simp at hnext
      · exact Bool.not_eq_true _ ▸ hclaimable
  | announcing requiresReview => exact not_claimable hfits rfl
  | failing => simp [Document.advance] at hnext
  | claimed | requiringAi | loading | extractingText | recording | asking | saving | finishing =>
      unfold Document.advance at hnext
      dsimp only at hnext
      split_ifs at hnext <;> simp at hnext

end Documents

/-! ## What a step keeps -/

section Steps

variable {s : AnalysisJob}

theorem mem_setAttempt (hs : Table.Distinct Attempt.id s.attempts) (attempt other : Attempt) :
    other ∈ (s.setAttempt attempt).attempts ↔
      other = attempt ∨ other ∈ s.attempts ∧ other.id ≠ attempt.id :=
  Table.mem_upsert_iff hs

theorem running_some {id : Id} {attempt : Attempt} (h : s.running id = some attempt) :
    attempt ∈ s.attempts ∧ attempt.id = id ∧ attempt.stage.over = false := by
  unfold AnalysisJob.running at h
  rw [Option.filter_eq_some_iff] at h
  exact ⟨Table.mem_of_lookup h.1, Table.key_of_lookup h.1, by simpa using h.2⟩

theorem held_setAttempt (hs : Held s) {document : Document} (attempt : Attempt)
    (hfits : document.Fits attempt.stage) (hdone : document.done = true → document.finished = true)
    (hwrites : (∀ other ∈ s.attempts, other.stage.claims = true → other.id = attempt.id) ∨
      document = s.document ∧ attempt.stage.claims = false) :
    Held ({ s with document }.setAttempt attempt) := by
  have hmem := fun other : Attempt => mem_setAttempt hs.distinct attempt other
  refine ⟨Table.distinct_upsert hs.distinct attempt, fun other hother => ?_, fun first hfirst second hsecond hclaims
    hclaims' => ?_, hdone⟩
  · rcases (hmem other).mp hother with rfl | ⟨hold, hne⟩
    · exact hfits
    · rcases hwrites with halone | ⟨rfl, -⟩
      · refine fits_of_not_claims ?_
        rw [← Bool.not_eq_true]
        exact fun hclaims => hne (halone other hold hclaims)
      · exact hs.fits other hold
  · rcases (hmem first).mp hfirst with rfl | ⟨hold, hne⟩
    · rcases (hmem second).mp hsecond with rfl | ⟨hold', hne'⟩
      · rfl
      · rcases hwrites with halone | ⟨-, hnot⟩
        · exact absurd (halone second hold' hclaims') hne'
        · exact absurd hclaims (Bool.not_eq_true _ ▸ hnot)
    · rcases (hmem second).mp hsecond with rfl | ⟨hold', -⟩
      · rcases hwrites with halone | ⟨-, hnot⟩
        · exact absurd (halone first hold hclaims) hne
        · exact absurd hclaims' (Bool.not_eq_true _ ▸ hnot)
      · exact hs.alone first hold second hold' hclaims hclaims'

theorem held_step (hs : Held s) (event : AnalysisEvent) : Held (s.step event) := by
  cases event with
  | start id =>
      unfold AnalysisJob.step
      dsimp only
      split_ifs
      · exact hs
      · exact held_setAttempt hs _ trivial hs.done (.inr ⟨rfl, rfl⟩)
  | step id outcome =>
      unfold AnalysisJob.step
      dsimp only
      cases hrunning : s.running id with
      | none => exact hs
      | some attempt =>
          obtain ⟨hmem, hid, -⟩ := running_some hrunning
          have hfits := hs.fits attempt hmem
          obtain ⟨hfits', hdone'⟩ := advance_fits outcome hfits hs.done
          refine held_setAttempt hs _ hfits' hdone' ?_
          rcases advance_writes s.document outcome attempt.stage with hclaims | hclaimable | hkept
          · exact .inl fun other hother hclaims' => hs.alone other hother attempt hmem hclaims' hclaims
          · refine .inl fun other hother hclaims => ?_
            have hnot := not_claimable (hs.fits other hother) hclaims
            cases hclaimable.symm.trans hnot
          · exact .inr hkept
  | crash id =>
      unfold AnalysisJob.step
      dsimp only
      cases hrunning : s.running id with
      | none => exact hs
      | some attempt => exact held_setAttempt hs _ trivial hs.done (.inr ⟨rfl, rfl⟩)
  | timeout id =>
      unfold AnalysisJob.step
      dsimp only
      cases hrunning : s.running id with
      | none => exact hs
      | some attempt =>
          obtain ⟨hmem, hid, -⟩ := running_some hrunning
          refine held_setAttempt hs { attempt with timedOut := true } (hs.fits attempt hmem) hs.done ?_
          by_cases hclaims : attempt.stage.claims = true
          · exact .inl fun other hother hclaims' => hs.alone other hother attempt hmem hclaims' hclaims
          · exact .inr ⟨rfl, Bool.not_eq_true _ ▸ hclaims⟩

theorem held_start : Held {} where
  distinct := List.nodup_nil
  fits _ h := absurd h List.not_mem_nil
  alone _ h := absurd h List.not_mem_nil
  done h := by cases h

/-- What undisturbed steps keep: a document in processing is held, and one that is relied on cannot be claimed. -/
structure Sound (s : AnalysisJob) : Prop where
  held : Held s
  kept : s.document.status = .processing → ∃ attempt ∈ s.attempts, attempt.stage.holds = true
  relied : s.reliedOn = true → s.document.claimable = false

/-- One attempt moves on, and the document with it. -/
theorem sound_setAttempt (hs : Sound s) {document : Document} {attempt : Attempt}
    (hheld : Held ({ s with document }.setAttempt attempt))
    (hkept : document.status = .processing → attempt.stage.holds = true ∨
      ∃ other ∈ s.attempts, other.stage.holds = true ∧ other.id ≠ attempt.id)
    (hothers : s.reliedOn = true → document.claimable = false)
    (hthis : attempt.timedOut = false → attempt.stage = .returned ∨ attempt.stage = .rereading →
      document.claimable = false) :
    Sound ({ s with document }.setAttempt attempt) where
  held := hheld
  kept := by
    intro hprocessing
    rcases hkept hprocessing with hholds | ⟨other, hother, hholds, hne⟩
    · exact ⟨attempt, (mem_setAttempt hs.held.distinct _ _).mpr (.inl rfl), hholds⟩
    · exact ⟨other, (mem_setAttempt hs.held.distinct _ _).mpr (.inr ⟨hother, hne⟩), hholds⟩
  relied := by
    intro hrelied
    obtain ⟨other, hother, hrelies⟩ := List.any_eq_true.mp hrelied
    rcases (mem_setAttempt hs.held.distinct _ _).mp hother with rfl | ⟨hold, -⟩
    · simp only [Bool.and_eq_true, Bool.not_eq_true', Bool.or_eq_true, decide_eq_true_eq] at hrelies
      exact hthis hrelies.1 hrelies.2
    · exact hothers (List.any_eq_true.mpr ⟨other, hold, hrelies⟩)

/-- Where the document is in processing and this attempt does not hold it, another does. -/
theorem Sound.held_by_other (hs : Sound s) {attempt : Attempt} (hmem : attempt ∈ s.attempts)
    (hholds : attempt.stage.holds = false) (hprocessing : s.document.status = .processing) :
    ∃ other ∈ s.attempts, other.stage.holds = true ∧ other.id ≠ attempt.id := by
  obtain ⟨other, hother, hother_holds⟩ := hs.kept hprocessing
  refine ⟨other, hother, hother_holds, fun hid => ?_⟩
  have hlookup := Table.lookup_of_mem hs.held.distinct hother
  rw [hid, Table.lookup_of_mem hs.held.distinct hmem] at hlookup
  obtain rfl := Option.some.inj hlookup
  cases hholds.symm.trans hother_holds

theorem sound_step (hs : Sound s) (event : AnalysisEvent) (hevent : s.Undisturbed event) : Sound (s.step event) := by
  have hheld := held_step hs.held event
  cases event with
  | start id =>
      unfold AnalysisJob.step at hheld ⊢
      dsimp only at hheld ⊢
      split_ifs at hheld ⊢ with hstarts
      · exact hs
      · refine sound_setAttempt hs hheld (fun hprocessing => ?_) hs.relied (by simp)
        obtain ⟨other, hother, hholds⟩ := hs.kept hprocessing
        refine .inr ⟨other, hother, hholds, fun hid => hstarts (.inr ?_)⟩
        have hlookup := Table.lookup_of_mem hs.held.distinct hother
        change other.id = id at hid
        rw [hid] at hlookup
        exact Option.isSome_of_eq_some hlookup
  | step id outcome =>
      unfold AnalysisJob.Undisturbed at hevent
      unfold AnalysisJob.step at hheld ⊢
      dsimp only at hheld hevent ⊢
      cases hrunning : s.running id with
      | none => exact hs
      | some attempt =>
          rw [hrunning] at hheld hevent
          obtain ⟨hmem, hid, hover⟩ := running_some hrunning
          have hfits := hs.held.fits attempt hmem
          have hthis := hevent attempt rfl
          have hstrands : outcome.fails = true → attempt.stage.strands = false := by
            intro hfails
            rwa [if_pos hfails] at hthis
          have hrecords : s.reliedOn = true → outcome.fails = false → attempt.stage.recordsFailure = false := by
            intro hrelied hworks
            rw [if_neg (by simp [hworks])] at hthis
            by_contra hrecords
            cases hrelied.symm.trans (hthis (Bool.not_eq_false _ ▸ hrecords))
          refine sound_setAttempt hs hheld (fun hprocessing => ?_) (fun hrelied => ?_) fun hcounts hnext => ?_
          · rcases advance_holds hfits hstrands hprocessing with hholds | ⟨hprocessing', hholds⟩
            · exact .inl hholds
            · exact .inr (@Sound.held_by_other _ hs attempt hmem hholds hprocessing')
          · exact advance_claimable (hs.relied hrelied) (hrecords hrelied)
          · by_cases hstage : attempt.stage = .rereading
            · have hrelied : s.reliedOn = true :=
                List.any_eq_true.mpr ⟨attempt, hmem, by simp_all⟩
              exact advance_claimable (hs.relied hrelied) (hrecords hrelied)
            · exact advance_relies hfits hstage hover hnext
  | crash id =>
      unfold AnalysisJob.Undisturbed at hevent
      unfold AnalysisJob.step at hheld ⊢
      dsimp only at hheld hevent ⊢
      cases hrunning : s.running id with
      | none => exact hs
      | some attempt =>
          rw [hrunning] at hheld hevent
          obtain ⟨hmem, -, -⟩ := running_some hrunning
          refine sound_setAttempt hs hheld (fun hprocessing => ?_) hs.relied (by simp)
          exact .inr (@Sound.held_by_other _ hs attempt hmem (hevent attempt rfl) hprocessing)
  | timeout id =>
      unfold AnalysisJob.step at hheld ⊢
      dsimp only at hheld ⊢
      cases hrunning : s.running id with
      | none => exact hs
      | some attempt =>
          rw [hrunning] at hheld
          obtain ⟨hmem, -, -⟩ := running_some hrunning
          refine sound_setAttempt hs hheld (fun hprocessing => ?_) hs.relied (by simp)
          by_cases hholds : attempt.stage.holds = true
          · exact .inl hholds
          · exact .inr (@Sound.held_by_other _ hs attempt hmem (Bool.not_eq_true _ ▸ hholds) hprocessing)

theorem sound_start : Sound {} where
  held := held_start
  kept h := by cases h
  relied h := by cases h

/-- In a sound state the law holds. -/
theorem Sound.finishedOnce (hs : Sound s) : s.FinishedOnce := by
  intro hcompleted hidle
  have hrelied : s.reliedOn = true := by
    obtain ⟨attempt, hmem, hsucceeded⟩ := List.any_eq_true.mp hcompleted
    unfold Attempt.succeeded at hsucceeded
    exact List.any_eq_true.mpr ⟨attempt, hmem, by simp_all⟩
  have hclaimable := hs.relied hrelied
  have hprocessing : s.document.status ≠ .processing := by
    intro hprocessing
    obtain ⟨attempt, hmem, hholds⟩ := hs.kept hprocessing
    have hover := List.all_eq_true.mp hidle attempt hmem
    unfold Stage.over at hover
    unfold Stage.holds at hholds
    cases hstage : attempt.stage <;> simp_all
  refine hs.held.done ?_
  unfold Document.claimable at hclaimable
  unfold Document.done
  cases hstatus : s.document.status <;> simp_all

end Steps

/-- In every run whose steps are undisturbed, a completed job has a finished document once no handler runs. -/
theorem finished_documents (events : List AnalysisEvent)
    (hevents : Machine.Meets AnalysisJob.step AnalysisJob.Undisturbed {} events) :
    ∀ first rest, events = first ++ rest → (Machine.run AnalysisJob.step {} first).FinishedOnce := by
  rintro first rest rfl
  have hfirst := (Machine.meets_append.mp hevents).1
  exact (Machine.invariant_of_meets (I := Sound) (fun _ event hs => sound_step hs event) sound_start
    hfirst).finishedOnce

/-- The first attempt fails, the second times out at the AI service, the third gives way to its handler and returns;
the handler then writes its result. -/
def overtakenTimeout : List AnalysisEvent :=
  [.start 1, .step 1 {}, .step 1 {}, .step 1 {}, .step 1 {}, .step 1 { fails := true }, .step 1 {},
   .start 2, .step 2 {}, .step 2 {}, .step 2 {}, .step 2 {}, .step 2 {}, .step 2 {}, .step 2 {}, .timeout 2,
   .start 3, .step 3 {}, .step 3 {}, .step 3 {}, .step 2 { requiresReview := true }, .step 2 {}, .step 2 {},
   .step 2 {}]

theorem overtakenTimeout_finishes :
    (Machine.run AnalysisJob.step {} overtakenTimeout).completed = true ∧
      (Machine.run AnalysisJob.step {} overtakenTimeout).FinishedOnce :=
  ⟨by decide, finished_documents overtakenTimeout (by decide) overtakenTimeout [] (List.append_nil _).symm⟩

/-- The first attempt claims the document and crashes; the second cannot claim it and returns. -/
def crashedClaim : List AnalysisEvent :=
  [.start 1, .step 1 {}, .step 1 {}, .crash 1, .start 2, .step 2 {}, .step 2 {}, .step 2 {}]

theorem left_processing :
    (Machine.run AnalysisJob.step {} crashedClaim).completed = true ∧
      (Machine.run AnalysisJob.step {} crashedClaim).document.status = .processing ∧
      ¬ (Machine.run AnalysisJob.step {} crashedClaim).FinishedOnce := by
  refine ⟨by decide, by decide, fun h => ?_⟩
  have hfinished := h (by decide) (by decide)
  cases hfinished

end DealFlow360.Documents
