import DealFlow360.Lib.Program

/-!
# Loops that stop at the first refusal

A loop whose every step either writes or refuses and leaves the state alone. It
keeps what the elements before the first refused one wrote, and it fails
exactly if there is a refused one.

`taken` is the list of elements before the first refused one, and `wrote` what
they leave of a state. For a loop whose step is `Guarded` by a test, one
theorem says how it ends (`Guarded.run`): it goes through and leaves what all
elements wrote, or it throws and leaves what the elements before the refused
one wrote. Saves and replaces that write row by row are instances.
-/

namespace Loops

open Program

universe u
variable {ε σ α : Type u}

/-- Each step writes what it accepts and refuses the rest, while `I` holds. -/
structure Guarded (I : σ → Prop) (step : α → EStateM ε σ PUnit) (accepts : σ → α → Bool) (write : α → σ → σ) :
    Prop where
  accepted : ∀ {a s}, I s → accepts s a = true → step a s = .ok PUnit.unit (write a s)
  refused : ∀ {a s}, I s → accepts s a = false → ∃ e, step a s = .error e s
  keeps : ∀ {a s}, I s → accepts s a = true → I (write a s)

/-- The elements before the first refused one. -/
def taken (accepts : σ → α → Bool) (write : α → σ → σ) : List α → σ → List α
  | [], _ => []
  | a :: l, s => if accepts s a then a :: taken accepts write l (write a s) else []

/-- The state after writing elements one by one. -/
def wrote (write : α → σ → σ) (l : List α) (s : σ) : σ := l.foldl (fun s a => write a s) s

def loop (step : α → EStateM ε σ PUnit) (l : List α) : EStateM ε σ PUnit :=
  l.foldlM (fun (_ : PUnit) a => step a) PUnit.unit

section Loop

variable {I : σ → Prop} {step : α → EStateM ε σ PUnit} {accepts : σ → α → Bool} {write : α → σ → σ}

theorem loop_cons (a : α) (l : List α) : loop step (a :: l) = step a >>= fun _ => loop step l := by
  unfold loop
  rw [List.foldlM_cons]

theorem taken_of_accepted {a : α} {s : σ} (l : List α) (h : accepts s a = true) :
    taken accepts write (a :: l) s = a :: taken accepts write l (write a s) := if_pos h

theorem taken_of_refused {a : α} {s : σ} (l : List α) (h : accepts s a = false) :
    taken accepts write (a :: l) s = [] := if_neg (by rw [h]; exact Bool.false_ne_true)

/-- A loop goes through, or it stops at an element it refuses with what it took before. -/
theorem Guarded.run (hguarded : Guarded I step accepts write) (l : List α) (s : σ) (hs : I s) :
    (taken accepts write l s = l ∧ loop step l s = .ok PUnit.unit (wrote write l s)) ∨
      (taken accepts write l s ≠ l ∧ ∃ e, loop step l s = .error e (wrote write (taken accepts write l s) s)) := by
  induction l generalizing s with
  | nil => exact .inl ⟨rfl, rfl⟩
  | cons a l ih =>
      rw [loop_cons]
      cases h : accepts s a with
      | true =>
          rw [bind_of_ok (hguarded.accepted hs h), taken_of_accepted l h]
          rcases ih (write a s) (hguarded.keeps hs h) with ⟨hall, hrun⟩ | ⟨hsome, e, hrun⟩
          · exact .inl ⟨by rw [hall], hrun⟩
          · exact .inr ⟨fun heq => hsome (List.cons.inj heq).2, e, hrun⟩
      | false =>
          obtain ⟨e, hstep⟩ := hguarded.refused hs h
          rw [bind_of_error hstep, taken_of_refused l h]
          exact .inr ⟨(List.cons_ne_nil a l).symm, e, rfl⟩

/-- Where the state does not matter to a refusal, the elements taken are the longest run of accepted ones. -/
theorem Guarded.taken_eq_takeWhile (hguarded : Guarded I step accepts write) {p : α → Bool}
    (hp : ∀ {a s}, I s → accepts s a = p a) (l : List α) {s : σ} (hs : I s) :
    taken accepts write l s = l.takeWhile p := by
  induction l generalizing s with
  | nil => rfl
  | cons a l ih =>
      cases h : accepts s a with
      | true =>
          rw [taken_of_accepted l h, List.takeWhile_cons_of_pos (by rw [← hp hs, h]), ih (hguarded.keeps hs h)]
      | false =>
          rw [taken_of_refused l h, List.takeWhile_cons_of_neg (by rw [← hp hs, h]; exact Bool.false_ne_true)]

end Loop

end Loops
