import DealFlow360.Events.EventIds
import Mathlib.Data.List.Forall2

/-!
# Well-formed texts

A text that is turned into bytes loses its lone surrogates: each becomes the
replacement character.

`toWellFormed` is the platform's function: it replaces what is not part of a
pair and leaves the rest. Cutting, trimming and concatenating commute with it
away from the seam (`toWellFormed_append_cons`, `forall₂_trimText`), so a text
without surrogates at its ends can be followed through an encoding. Texts of a
JSON value and the parameters of a link both go this way.
-/

namespace DealFlow360.Events

def isHighSurrogate (unit : ℕ) : Bool := 0xD800 ≤ unit && unit ≤ 0xDBFF

def isLowSurrogate (unit : ℕ) : Bool := 0xDC00 ≤ unit && unit ≤ 0xDFFF

/-- `toWellFormed`, which is also what encoding and decoding a text in UTF-8 comes to. -/
def toWellFormed : Text → Text
  | [] => []
  | [unit] => [if isHighSurrogate unit || isLowSurrogate unit then 0xFFFD else unit]
  | unit :: next :: rest =>
      if isHighSurrogate unit && isLowSurrogate next then unit :: next :: toWellFormed rest
      else (if isHighSurrogate unit || isLowSurrogate unit then 0xFFFD else unit) :: toWellFormed (next :: rest)

/-- A text without lone surrogates. -/
def WellFormed (text : Text) : Prop := toWellFormed text = text

instance (text : Text) : Decidable (WellFormed text) := inferInstanceAs (Decidable (_ = _))

theorem toWellFormed_cons_of_not {unit : ℕ} (h : (isHighSurrogate unit || isLowSurrogate unit) = false) (text : Text) :
    toWellFormed (unit :: text) = unit :: toWellFormed text := by
  obtain ⟨hhigh, hlow⟩ := Bool.or_eq_false_iff.mp h
  cases text with
  | nil =>
      show [if isHighSurrogate unit || isLowSurrogate unit then 0xFFFD else unit] = [unit]
      rw [hhigh, hlow]
      rfl
  | cons next rest =>
      rw [toWellFormed, hhigh, hlow]
      rfl

theorem toWellFormed_cons {unit : ℕ} (h : unit < 0xD800) (text : Text) :
    toWellFormed (unit :: text) = unit :: toWellFormed text := by
  have hhigh : ¬0xD800 ≤ unit := by omega
  have hlow : ¬0xDC00 ≤ unit := by omega
  refine toWellFormed_cons_of_not ?_ text
  unfold isHighSurrogate isLowSurrogate
  rw [decide_eq_false hhigh, decide_eq_false hlow]
  rfl

theorem toWellFormed_append {left : Text} (h : ∀ unit ∈ left, unit < 0xD800) (text : Text) :
    toWellFormed (left ++ text) = left ++ toWellFormed text := by
  induction left with
  | nil => rfl
  | cons unit left ih =>
      obtain ⟨hunit, hrest⟩ := List.forall_mem_cons.mp h
      rw [List.cons_append, toWellFormed_cons hunit, ih hrest, List.cons_append]

/-- A unit that is no surrogate keeps what is around it apart. -/
theorem toWellFormed_append_cons {unit : ℕ} (h : unit < 0xD800) (text rest : Text) :
    toWellFormed (text ++ unit :: rest) = toWellFormed text ++ unit :: toWellFormed rest := by
  have hlow : isLowSurrogate unit = false := by
    unfold isLowSurrogate
    rw [decide_eq_false (by omega), Bool.false_and]
  fun_induction toWellFormed text with
  | case1 => exact toWellFormed_cons h rest
  | case2 first =>
      rw [List.singleton_append, toWellFormed, hlow, Bool.and_false, if_neg Bool.false_ne_true, toWellFormed_cons h]
      rfl
  | case3 first next text hpair ih =>
      rw [List.cons_append, List.cons_append, toWellFormed, if_pos hpair, ih]
      rfl
  | case4 first next text hpair ih =>
      rw [List.cons_append, List.cons_append, toWellFormed, if_neg hpair, ← List.cons_append, ih]
      rfl

/-- A unit and what it becomes. -/
def Replaced (unit unit' : ℕ) : Prop := unit' = unit ∨ 0xD800 ≤ unit ∧ unit ≤ 0xDFFF ∧ unit' = 0xFFFD

theorem replaced_unit (unit : ℕ) :
    Replaced unit (if isHighSurrogate unit || isLowSurrogate unit then 0xFFFD else unit) := by
  split_ifs with hsurrogate
  · right
    unfold isHighSurrogate isLowSurrogate at hsurrogate
    simp only [Bool.or_eq_true, Bool.and_eq_true, decide_eq_true_eq] at hsurrogate
    omega
  · exact Or.inl rfl

theorem forall₂_toWellFormed (text : Text) : List.Forall₂ Replaced text (toWellFormed text) := by
  fun_induction toWellFormed text with
  | case1 => exact .nil
  | case2 unit => exact .cons (replaced_unit unit) .nil
  | case3 unit next rest hpair ih => exact .cons (Or.inl rfl) (.cons (Or.inl rfl) ih)
  | case4 unit next rest hpair ih => exact .cons (replaced_unit unit) ih

theorem Replaced.isSpaceUnit_eq {unit unit' : ℕ} (h : Replaced unit unit') : isSpaceUnit unit = isSpaceUnit unit' := by
  rcases h with rfl | ⟨hlow, hhigh, rfl⟩
  · rfl
  · unfold isSpaceUnit
    have hnone : unit ∉ [0x9, 0xA, 0xB, 0xC, 0xD, 0x20, 0xA0, 0x1680, 0x2028, 0x2029, 0x202F, 0x205F, 0x3000,
        0xFEFF] := by
      simp only [List.mem_cons, List.not_mem_nil, or_false, not_or]
      omega
    rw [decide_eq_false hnone, decide_eq_false (by omega)]
    rfl

theorem forall₂_dropWhile {text text' : Text} (h : List.Forall₂ Replaced text text') :
    List.Forall₂ Replaced (text.dropWhile isSpaceUnit) (text'.dropWhile isSpaceUnit) := by
  induction h with
  | nil => exact .nil
  | cons hunit hrest ih =>
      rw [List.dropWhile_cons, List.dropWhile_cons, hunit.isSpaceUnit_eq]
      split_ifs
      · exact ih
      · exact .cons hunit hrest

/-- A text is trimmed in the same places before and after. -/
theorem forall₂_trimText (text : Text) : List.Forall₂ Replaced (trimText text) (trimText (toWellFormed text)) := by
  unfold trimText List.rdropWhile
  exact List.rel_reverse (forall₂_dropWhile (List.rel_reverse (forall₂_dropWhile (forall₂_toWellFormed text))))

theorem eq_of_forall₂_replaced {text text' : Text} (h : List.Forall₂ Replaced text text') (hnone : 0xFFFD ∉ text') :
    text = text' := by
  induction h with
  | nil => rfl
  | cons hunit hrest ih =>
      rw [List.mem_cons, not_or] at hnone
      rcases hunit with rfl | ⟨-, -, rfl⟩
      · rw [ih hnone.2]
      · exact absurd rfl hnone.1

theorem wellFormed_of_lt {text : Text} (h : ∀ unit ∈ text, unit < 0xD800) : WellFormed text := by
  have happend := toWellFormed_append h []
  rwa [List.append_nil, toWellFormed, List.append_nil] at happend

end DealFlow360.Events
