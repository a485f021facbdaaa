import Mathlib.Data.List.Basic

/-!
# Runs of a machine

A machine takes one input after another. `Meets` restricts the runs to those
whose every input meets a condition in the state it is taken in; an invariant
that each such input keeps holds after each such run, and a relation that each
such input stays inside relates a run's ends.

The rules a proof about runs uses are here once:

- `invariant` and `invariant_of_meets`: an invariant, without and with a
  condition on the inputs;
- `meets_of_invariant` and `meets_congr`: what follows for every input of a
  run, and when two conditions are one;
- `run_iff_of_exact`, `always_iff_of_exact`, `meets_iff_of_exact`: where a
  condition decides what a single step does, it decides it of runs, in both
  directions;
- `simulation`: two machines that stay related.

States and inputs are any types and the step is any function, so a protocol, a
store or a scheduler is an instance.
-/

namespace Machine

variable {σ ι : Type*} (step : σ → ι → σ)

def run (s : σ) (inputs : List ι) : σ := inputs.foldl step s

/-- Every input of the run meets `C` in the state it is taken in. -/
def Meets (C : σ → ι → Prop) : σ → List ι → Prop
  | _, [] => True
  | s, i :: inputs => C s i ∧ Meets C (step s i) inputs

variable {step} {C : σ → ι → Prop}

@[simp] theorem meets_nil (s : σ) : Meets step C s [] := trivial

theorem meets_cons {s : σ} {i : ι} {inputs : List ι} :
    Meets step C s (i :: inputs) ↔ C s i ∧ Meets step C (step s i) inputs := Iff.rfl

@[simp] theorem run_nil (s : σ) : run step s [] = s := rfl

@[simp] theorem run_cons (s : σ) (i : ι) (inputs : List ι) :
    run step s (i :: inputs) = run step (step s i) inputs := rfl

theorem run_append (s : σ) (first last : List ι) :
    run step s (first ++ last) = run step (run step s first) last :=
  List.foldl_append

theorem run_concat (s : σ) (inputs : List ι) (i : ι) :
    run step s (inputs ++ [i]) = step (run step s inputs) i := by
  rw [run_append, run_cons, run_nil]

theorem meets_append {s : σ} {first last : List ι} :
    Meets step C s (first ++ last) ↔
      Meets step C s first ∧ Meets step C (run step s first) last := by
  induction first generalizing s with
  | nil => simp
  | cons i first ih => simp only [List.cons_append, meets_cons, run_cons, ih, and_assoc]

theorem meets_concat {s : σ} {inputs : List ι} {i : ι} :
    Meets step C s (inputs ++ [i]) ↔ Meets step C s inputs ∧ C (run step s inputs) i := by
  simp only [meets_append, meets_cons, meets_nil, and_true]

theorem meets_and {D : σ → ι → Prop} {s : σ} {inputs : List ι} :
    Meets step (fun s i => C s i ∧ D s i) s inputs ↔
      Meets step C s inputs ∧ Meets step D s inputs := by
  induction inputs generalizing s with
  | nil => simp
  | cons i inputs ih =>
      simp only [meets_cons, ih]
      exact and_and_and_comm

instance Meets.decidable [∀ s i, Decidable (C s i)] :
    ∀ (s : σ) (inputs : List ι), Decidable (Meets step C s inputs)
  | _, [] => .isTrue trivial
  | s, i :: inputs =>
      have := Meets.decidable (step s i) inputs
      inferInstanceAs (Decidable (C s i ∧ Meets step C (step s i) inputs))

/-- Inputs that meet `C` in every state meet it throughout every run. -/
theorem meets_of_forall {inputs : List ι} (h : ∀ i ∈ inputs, ∀ s, C s i) (s : σ) :
    Meets step C s inputs := by
  induction inputs generalizing s with
  | nil => trivial
  | cons i inputs ih =>
      exact ⟨h i List.mem_cons_self s, ih (fun j hj => h j (List.mem_cons_of_mem _ hj)) _⟩

/-- A run meets `C` if and only if each of its inputs does, after those before it. -/
theorem meets_iff {s : σ} {inputs : List ι} :
    Meets step C s inputs ↔
      ∀ first i rest, inputs = first ++ i :: rest → C (run step s first) i := by
  constructor
  · rintro h first i rest rfl
    exact (meets_append.mp h).2.1
  · intro h
    induction inputs generalizing s with
    | nil => trivial
    | cons i inputs ih =>
        refine ⟨h [] i inputs rfl, ih fun first j rest hinputs => ?_⟩
        exact h (i :: first) j rest (congrArg (i :: ·) hinputs)

/-- What holds after every part of a run holds at its start and after every step. -/
theorem forall_prefix_iff {J : σ → Prop} {s : σ} {inputs : List ι} :
    (∀ first rest, inputs = first ++ rest → J (run step s first)) ↔
      J s ∧ Meets step (fun s i => J (step s i)) s inputs := by
  constructor
  · intro h
    refine ⟨h [] inputs rfl, meets_iff.mpr fun first i rest hinputs => ?_⟩
    have hlast := h (first ++ [i]) rest (by rw [hinputs, List.append_assoc, List.singleton_append])
    rwa [run_concat] at hlast
  · rintro ⟨hs, hmeets⟩ first rest rfl
    rcases List.eq_nil_or_concat first with rfl | ⟨before, i, rfl⟩
    · exact hs
    · rw [List.concat_eq_append] at hmeets ⊢
      rw [run_concat]
      exact (meets_concat.mp (meets_append.mp hmeets).1).2

/-- Where `C` decides of every input whether the step keeps `J` and does `D`, it decides so of runs. -/
theorem meets_iff_of_exact {I J : σ → Prop} {D : σ → ι → Prop}
    (hinvariant : ∀ s i, I s → I (step s i))
    (hexact : ∀ s i, I s → J s → (J (step s i) ∧ D s i ↔ C s i)) {s : σ} {inputs : List ι}
    (hs : I s) (hstart : J s) :
    Meets step (fun s i => J (step s i) ∧ D s i) s inputs ↔ Meets step C s inputs := by
  induction inputs generalizing s with
  | nil => exact Iff.rfl
  | cons i inputs ih =>
      constructor
      · rintro ⟨hfirst, hrest⟩
        exact ⟨(hexact s i hs hstart).mp hfirst, (ih (hinvariant s i hs) hfirst.1).mp hrest⟩
      · rintro ⟨hfirst, hrest⟩
        have hnext := (hexact s i hs hstart).mpr hfirst
        exact ⟨hnext, (ih (hinvariant s i hs) hnext.1).mpr hrest⟩

/-- Where `C` decides of every input whether the step keeps `J`, it decides whether `J` holds throughout a
run. -/
theorem always_iff_of_exact {J : σ → Prop} (hexact : ∀ s i, J s → (J (step s i) ↔ C s i)) {s : σ}
    {inputs : List ι} (hstart : J s) :
    (∀ first rest, inputs = first ++ rest → J (run step s first)) ↔ Meets step C s inputs := by
  rw [forall_prefix_iff, and_iff_right hstart]
  induction inputs generalizing s with
  | nil => exact Iff.rfl
  | cons i inputs ih =>
      simp only [meets_cons]
      rw [hexact s i hstart]
      exact and_congr_right fun hfirst => ih ((hexact s i hstart).mpr hfirst)

/-- An invariant kept by every input that meets `C` holds after every run that does. -/
theorem invariant_of_meets {I : σ → Prop} (hstep : ∀ s i, I s → C s i → I (step s i)) {s : σ}
    {inputs : List ι} (hs : I s) (hmeets : Meets step C s inputs) : I (run step s inputs) := by
  induction inputs generalizing s with
  | nil => exact hs
  | cons i inputs ih => exact ih (hstep s i hs hmeets.1) hmeets.2

theorem meets_mono {D : σ → ι → Prop} (h : ∀ s i, C s i → D s i) {s : σ} {inputs : List ι}
    (hmeets : Meets step C s inputs) : Meets step D s inputs := by
  induction inputs generalizing s with
  | nil => trivial
  | cons i inputs ih => exact ⟨h s i hmeets.1, ih hmeets.2⟩

/-- What every input that meets `C` does in a state of the invariant, every input of a run that does does. -/
theorem meets_of_invariant {I : σ → Prop} {D : σ → ι → Prop}
    (hstep : ∀ s i, I s → C s i → I (step s i) ∧ D s i) {s : σ} {inputs : List ι} (hs : I s)
    (hmeets : Meets step C s inputs) : Meets step D s inputs := by
  induction inputs generalizing s with
  | nil => trivial
  | cons i inputs ih =>
      obtain ⟨hnext, hdoes⟩ := hstep s i hs hmeets.1
      exact ⟨hdoes, ih hnext hmeets.2⟩

/-- Conditions that agree in every state of an invariant agree on every run. -/
theorem meets_congr {I : σ → Prop} {D : σ → ι → Prop} (hinvariant : ∀ s i, I s → I (step s i))
    (hexact : ∀ s i, I s → (C s i ↔ D s i)) {s : σ} {inputs : List ι} (hs : I s) :
    Meets step C s inputs ↔ Meets step D s inputs := by
  induction inputs generalizing s with
  | nil => exact Iff.rfl
  | cons i inputs ih => exact and_congr (hexact s i hs) (ih (hinvariant s i hs))

/-- What holds after a step exactly if it held before and the input met `C` holds after a run exactly if it held
at its start and every input met `C`. -/
theorem run_iff_of_exact {I J : σ → Prop} (hinvariant : ∀ s i, I s → I (step s i))
    (hexact : ∀ s i, I s → (J (step s i) ↔ J s ∧ C s i)) {s : σ} {inputs : List ι} (hs : I s) :
    J (run step s inputs) ↔ J s ∧ Meets step C s inputs := by
  induction inputs generalizing s with
  | nil => exact (and_iff_left trivial).symm
  | cons i inputs ih =>
      rw [run_cons, ih (hinvariant s i hs), hexact s i hs, and_assoc]
      rfl

/-- An invariant every input keeps holds after every run. -/
theorem invariant {I : σ → Prop} (hstep : ∀ s i, I s → I (step s i)) {s : σ} (hs : I s)
    (inputs : List ι) : I (run step s inputs) := by
  induction inputs generalizing s with
  | nil => exact hs
  | cons i inputs ih => exact ih (hstep s i hs)

/-- Two machines that every input takes from related states to related ones stay related. -/
theorem simulation {τ : Type*} {step' : τ → ι → τ} {R : σ → τ → Prop}
    (hstep : ∀ s t i, R s t → R (step s i) (step' t i)) {s : σ} {t : τ} (h : R s t) (inputs : List ι) :
    R (run step s inputs) (run step' t inputs) := by
  induction inputs generalizing s t with
  | nil => exact h
  | cons i inputs ih => exact ih (hstep s t i h)

end Machine
