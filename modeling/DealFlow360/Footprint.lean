import DealFlow360.QuoteStep

/-!
# The footprint of an operation on quotes

Operations on quotes write few tables. A relation between worlds that quiet
preparation, answers and the writes of a quote stay inside is one that every
such operation stays inside, edits as far as the edit itself does.

The relation is a parameter: whatever is reflexive, transitive and kept by
drawing ids, by answering and by the writes of a quote is kept by the
operation. `serve_edit` and `serve_quoteFrame` are the two instances the
invariants use, the second for everything that leaves catalog and rules alone.
-/

namespace DealFlow360

open Program

/-- A relation that the parts of the operations on quotes stay inside, edits aside. -/
structure Footprint (R : World → World → Prop) : Prop where
  refl : ∀ w, R w w
  trans : ∀ w₁ w₂ w₃, R w₁ w₂ → R w₂ w₃ → R w₁ w₃
  quiet : ∀ {w w'}, QuietFrame w w' → R w w'
  tail : ∀ {w w'}, TailFrame w w' → R w w'
  save : ∀ record w, R w (w.withQuote record)
  delete : ∀ id w, R w { w with store := w.store.deleteQuote id }

/-- The operations on quotes that edit none: creating, deleting, assessing and reading. -/
def Operation.isPlain : Operation → Bool
  | .createQuote .. | .deleteQuote .. | .assess .. | .view .. => true
  | .edit _ | .catalog _ => false

namespace Footprint

variable {R : World → World → Prop}

/-- What creating, deleting, assessing and reading quotes stay inside. -/
theorem keeps (h : Footprint R) (env : Env) {operation : Operation}
    (hop : operation.isPlain = true) : Keeps R (operation.program env) := by
  have : Std.Refl R := ⟨h.refl⟩
  have : IsTrans World R := ⟨h.trans⟩
  have hsave (record : QuoteAggregate) : Keeps R (updateStore (Store.setQuote record)) :=
    .write (h.save record)
  have hanswer (a : QuoteAggregate) : Keeps R (decorate env a) :=
    Keeps.mono inferInstance fun _ _ => h.tail
  cases operation with
  | edit op => cases hop
  | catalog op => cases hop
  | createQuote customerId ownerId inputs actor =>
      have hdraft : Keeps R (draftQuote env customerId ownerId inputs actor) :=
        Keeps.mono inferInstance fun _ _ => h.quiet
      unfold Operation.program createQuote saveAssessed saveQuote
      infer_instance
  | deleteQuote quoteId actor version =>
      have hdelete : Keeps R (updateStore (Store.deleteQuote quoteId)) := .write (h.delete quoteId)
      unfold Operation.program deleteQuote assertDeletable
      dsimp only
      infer_instance
  | assess quoteId =>
      unfold Operation.program assess saveQuote
      infer_instance
  | view op => exact (keeps_view env op).mono fun _ _ => h.tail

theorem serve (h : Footprint R) (options : Options) (w : World) {request : Request}
    (hop : request.operation.isPlain = true) : R w (serve options w request) :=
  (h.keeps (request.env options) hop).keeps w

/-- An edit stays inside what its preparation of a loaded quote stays inside. -/
theorem serve_edit (h : Footprint R) {options : Options} {w : World} {request : Request}
    {op : QuoteEdit} (hop : request.operation = .edit op)
    (hedit : ∀ q a, (op.mutation (request.env options)).load w = .ok a w → Loaded w.store q a →
      Keeps R ((op.mutation (request.env options)).edit a)) :
    R w (DealFlow360.serve options w request) := by
  rcases outcome_of_serve hop with hworld | ⟨q, a, hload, hq, houtcome⟩
  · rw [hworld]
    exact h.refl w
  · have hkeeps := hedit q a hload hq
    cases houtcome with
    | failed hedit => exact hkeeps.of_error hedit
    | idle hedit htail => exact h.trans _ _ _ (hkeeps.of_ok hedit) (h.tail htail)
    | unpriced hedit hpairs => exact hkeeps.of_ok hedit
    | saved hedit hpairs htail =>
        exact h.trans _ _ _ (hkeeps.of_ok hedit) (h.trans _ _ _ (h.save _ _) (h.tail htail))

end Footprint

/-! ## Quotes beside the catalog -/

/-- Nothing of the catalog and the rules is written, but for stock and for customers. -/
structure QuoteFrame (w w' : World) : Prop where
  store : w'.store =
    { w.store with
      stock := w'.store.stock
      customers := w'.store.customers
      quotes := w'.store.quotes
      negotiations := w'.store.negotiations
      emails := w'.store.emails
      quoteSeq := w'.store.quoteSeq }

theorem quoteFrame_footprint : Footprint QuoteFrame where
  refl _ := ⟨rfl⟩
  trans _ _ _ h₁ h₂ := ⟨by rw [h₂.store, h₁.store]⟩
  quiet h := ⟨by rw [h.store]⟩
  tail h := ⟨by rw [h.store]⟩
  save _ _ := ⟨rfl⟩
  delete _ _ := ⟨rfl⟩

/-- Whatever is not a catalog edit leaves the catalog and the rules alone. -/
theorem serve_quoteFrame {options : Options} {w : World} {request : Request}
    (hop : ∀ op, request.operation ≠ .catalog op) : QuoteFrame w (serve options w request) := by
  cases hoperation : request.operation with
  | catalog op => exact absurd hoperation (hop op)
  | edit op =>
      refine quoteFrame_footprint.serve_edit hoperation fun q a _ _ => ?_
      exact (keeps_edit _ op a).mono fun _ _ h => ⟨by rw [h.store]⟩
  | _ => exact quoteFrame_footprint.serve options w (by rw [hoperation]; rfl)

end DealFlow360
