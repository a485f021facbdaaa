import DealFlow360.Events.EventIds

/-!
# Paths

`node:path` on absolute paths that are resolved, as lists of their segments.

`resolve` and `relative` follow the documented behaviour for absolute paths: a
dot is dropped and two dots take a segment away, never more than there are. A
path whose segments do not lead up stays inside the folder it is resolved in,
which is what the writer of projects checks.
-/

namespace DealFlow360.Paths

open Events (Text)

abbrev Path := List Text

def dot : Text := codeUnits "."

def dotDot : Text := codeUnits ".."

/-- `path.resolve` of an absolute path and further segments. -/
def resolve (base : Path) (segments : List Text) : Path :=
  segments.foldl (fun path segment =>
    if segment = [] ∨ segment = dot then path
    else if segment = dotDot then path.dropLast
    else path ++ [segment]) base

/-- `path.relative` of resolved paths, as its segments. -/
def relative : Path → Path → Path
  | [], child => child
  | _ :: parent, [] => List.replicate (parent.length + 1) dotDot
  | step :: parent, step' :: child =>
      if step = step' then relative parent child
      else List.replicate (parent.length + 1) dotDot ++ step' :: child

def isInside (child parent : Path) : Bool :=
  match relative parent child with
  | [] => false
  | first :: _ => !dotDot.isPrefixOf first

theorem isPrefix_of_isInside {child parent : Path} (h : isInside child parent = true) : parent <+: child := by
  induction parent generalizing child with
  | nil => exact List.nil_prefix
  | cons step parent ih =>
      unfold isInside at h ih
      cases child with
      | nil => exact absurd h (by simp [relative, List.replicate_succ])
      | cons step' child =>
          unfold relative at h
          split_ifs at h with hsame
          · rw [hsame]
            exact List.cons_prefix_cons.mpr ⟨rfl, ih h⟩
          · exact absurd h (by simp [List.replicate_succ])

/-! ## Segments that do not lead up -/

/-- A segment that names something below. -/
def Ordinary (segment : Text) : Prop := segment ≠ [] ∧ segment ≠ dot ∧ segment ≠ dotDot

instance (segment : Text) : Decidable (Ordinary segment) := inferInstanceAs (Decidable (_ ∧ _ ∧ _))

theorem resolve_eq {segments : List Text} (h : dotDot ∉ segments) (base : Path) :
    resolve base segments = base ++ segments.filter fun segment => decide (Ordinary segment) := by
  unfold resolve
  induction segments generalizing base with
  | nil => exact (List.append_nil base).symm
  | cons segment segments ih =>
      obtain ⟨hfirst, hrest⟩ := not_or.mp (List.mem_cons.not.mp h)
      rw [List.foldl_cons, ih hrest]
      by_cases hskip : segment = [] ∨ segment = dot
      · have hnot : ¬Ordinary segment := fun hord => hskip.elim hord.1 hord.2.1
        rw [if_pos hskip, List.filter_cons_of_neg (by simpa using hnot)]
      · have hord : Ordinary segment := ⟨(not_or.mp hskip).1, (not_or.mp hskip).2, Ne.symm hfirst⟩
        rw [if_neg hskip, if_neg (Ne.symm hfirst), List.filter_cons_of_pos (by simpa using hord),
          List.append_assoc, List.singleton_append]

theorem splitOn_cases {sep : ℕ} {text first : Text} {rest : List Text} (h : text.splitOn sep = first :: rest) :
    first <+: text ∧ ∀ piece ∈ rest, piece <:+: text := by
  induction text generalizing first rest with
  | nil =>
      obtain ⟨rfl, rfl⟩ := List.cons.inj h
      exact ⟨List.prefix_rfl, nofun⟩
  | cons unit text ih =>
      obtain ⟨first', rest', hpieces⟩ := List.exists_cons_of_ne_nil (List.splitOn_ne_nil sep text)
      obtain ⟨hfirst, hrest⟩ := ih hpieces
      rw [List.splitOn_cons_eq_if_modifyHead, hpieces] at h
      split at h
      · obtain ⟨rfl, rfl⟩ := List.cons.inj h
        refine ⟨List.nil_prefix, List.forall_mem_cons.mpr ⟨List.infix_cons hfirst.isInfix, fun piece hpiece => ?_⟩⟩
        exact List.infix_cons (hrest piece hpiece)
      · obtain ⟨rfl, rfl⟩ := List.cons.inj h
        exact ⟨List.cons_prefix_cons.mpr ⟨rfl, hfirst⟩, fun piece hpiece => List.infix_cons (hrest piece hpiece)⟩

theorem infix_of_mem_splitOn {sep : ℕ} {text piece : Text} (h : piece ∈ text.splitOn sep) : piece <:+: text := by
  obtain ⟨first, rest, hpieces⟩ := List.exists_cons_of_ne_nil (List.splitOn_ne_nil sep text)
  obtain ⟨hfirst, hrest⟩ := splitOn_cases hpieces
  rw [hpieces] at h
  rcases List.mem_cons.mp h with rfl | h
  · exact hfirst.isInfix
  · exact hrest piece h

end DealFlow360.Paths
