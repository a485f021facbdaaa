import DealFlow360.Lib.Spacing

/-!
# Filling lines

Pieces are joined to the line at hand while it fits, and begin a new one where
it does not. The lines have the ink of the pieces, and a line that does not fit
is one piece.

`place` is one step, and `close` ends the last line. Two facts are kept by a
step and so hold of the result:

- `ink_filled`: what is not blank is neither lost nor reordered;
- `fits_of_mem_filled`: only a line of a single piece can fail to fit.

Nothing is asked of `fits`; that a joined line is no shorter is not used. Words
filled into lines of a width and pieces merged into chunks are instances.
-/

namespace Filling

variable {α : Type*} (join : List α → List α → List α) (fits : List α → Bool)

/-- The lines that are full and the one at hand, with one more piece. -/
def place (state : List (List α) × List α) (piece : List α) : List (List α) × List α :=
  let next := if state.2 ≠ [] then join state.2 piece else piece
  if !fits next ∧ state.2 ≠ [] then (state.1 ++ [state.2], piece) else (state.1, next)

/-- The lines, of which the one at hand is the last. -/
def close (state : List (List α) × List α) : List (List α) := if state.2 ≠ [] then state.1 ++ [state.2] else state.1

variable {join fits}

/-! ## Ink -/

section Ink

open Spacing (ink ink_append)

variable {blank : α → Bool}

theorem ink_close (state : List (List α) × List α) :
    ink blank (close state).flatten = ink blank (state.1.flatten ++ state.2) := by
  unfold close
  split_ifs with hcurrent
  · rw [List.flatten_append, List.flatten_singleton]
  · rw [not_not.mp hcurrent, List.append_nil]

variable (hjoin : ∀ line piece, ink blank (join line piece) = ink blank line ++ ink blank piece)
include hjoin

theorem ink_place (state : List (List α) × List α) (piece : List α) :
    ink blank ((place join fits state piece).1.flatten ++ (place join fits state piece).2) =
      ink blank (state.1.flatten ++ state.2) ++ ink blank piece := by
  unfold place
  by_cases hcurrent : state.2 = []
  · dsimp only
    rw [if_neg (not_not.mpr hcurrent), if_neg fun h => h.2 hcurrent, hcurrent, List.append_nil, ink_append]
  · dsimp only
    rw [if_pos hcurrent]
    split_ifs
    · rw [List.flatten_append, List.flatten_singleton, ink_append]
    · rw [ink_append, ink_append, hjoin, List.append_assoc]

/-- The lines have the ink of the pieces. -/
theorem ink_filled (pieces : List (List α)) (state : List (List α) × List α) :
    ink blank (close (pieces.foldl (place join fits) state)).flatten =
      ink blank (state.1.flatten ++ state.2) ++ ink blank pieces.flatten := by
  induction pieces generalizing state with
  | nil => rw [List.foldl_nil, ink_close, List.flatten_nil, Spacing.ink_nil, List.append_nil]
  | cons piece pieces ih =>
      rw [List.foldl_cons, ih, ink_place hjoin, List.flatten_cons, ink_append piece, List.append_assoc]

end Ink

/-! ## Widths -/

/-- Every line fits or is one of the pieces. -/
def Filled (fits : List α → Bool) (pieces : List (List α)) (state : List (List α) × List α) : Prop :=
  (∀ line ∈ state.1, fits line = true ∨ line ∈ pieces) ∧ (state.2 ≠ [] → fits state.2 = true ∨ state.2 ∈ pieces)

theorem Filled.place {pieces : List (List α)} {state : List (List α) × List α} (h : Filled fits pieces state)
    {piece : List α}
    (hpiece : piece ∈ pieces) : Filled fits pieces (place join fits state piece) := by
  obtain ⟨hlines, hcurrent⟩ := h
  unfold Filling.place
  dsimp only
  by_cases hnone : state.2 = []
  · rw [if_neg (not_not.mpr hnone), if_neg fun h => h.2 hnone]
    exact ⟨hlines, fun _ => Or.inr hpiece⟩
  · rw [if_pos hnone]
    split_ifs with hfull
    · refine ⟨fun line hline => ?_, fun _ => Or.inr hpiece⟩
      rcases List.mem_append.mp hline with hline | hline
      · exact hlines line hline
      · obtain rfl := List.mem_singleton.mp hline
        exact hcurrent hnone
    · refine ⟨hlines, fun _ => Or.inl ?_⟩
      by_contra hwide
      exact hfull ⟨by simpa using hwide, hnone⟩

theorem Filled.fold {pieces : List (List α)} {state : List (List α) × List α} (h : Filled fits pieces state)
    {rest : List (List α)} (hrest : rest ⊆ pieces) :
    Filled fits pieces (rest.foldl (Filling.place join fits) state) := by
  induction rest generalizing state with
  | nil => exact h
  | cons piece rest ih =>
      obtain ⟨hpiece, hrest⟩ := List.cons_subset.mp hrest
      exact ih (h.place hpiece) hrest

/-- A line that does not fit is a piece. -/
theorem fits_of_mem_filled {pieces : List (List α)} {line : List α}
    (h : line ∈ close (pieces.foldl (place join fits) ([], []))) : fits line = true ∨ line ∈ pieces := by
  have hnone : Filled fits pieces ([], []) := ⟨fun line hline => absurd hline List.not_mem_nil, fun h => absurd rfl h⟩
  obtain ⟨hlines, hcurrent⟩ : Filled fits pieces (pieces.foldl (place join fits) ([], [])) :=
    hnone.fold (List.Subset.refl pieces)
  unfold close at h
  split_ifs at h with hne
  · rcases List.mem_append.mp h with hline | hline
    · exact hlines line hline
    · obtain rfl := List.mem_singleton.mp hline
      exact hcurrent hne
  · exact hlines line h

end Filling
