import Mathlib.Data.List.Chain
import Mathlib.Data.List.DropRight
import Mathlib.Data.List.Infix

/-!
# Texts and their white space

A text is a list of letters, some of which are blank. `squeeze` makes one space
of every run of blanks, `strip` takes the blanks off both ends, and neither
changes the `ink`, the letters that are not blank. `splitOn` cuts a text at a
separator; its pieces have the ink of the text but for that of the separators.

The algebra is that of the `ink`: it distributes over concatenation, and
`strip`, `squeeze`, joining and splitting are described by what they do to it.
`splitOn` has its own induction principle (`splitOn_induction`), and splitting
a text that comes in pieces goes on from the last piece (`splitOn_append`),
which is what a stream decoder does. Which letters are blank is a parameter.
-/

namespace Spacing

variable {α : Type*} (blank : α → Bool) (space : α)

/-- The letters that are not blank. -/
def ink (l : List α) : List α := l.filter fun a => !blank a

def strip (l : List α) : List α := (l.dropWhile blank).rdropWhile blank

/-- Every run of blanks becomes one space; the flag says that the letter before was one. -/
def squeeze : Bool → List α → List α
  | _, [] => []
  | true, a :: l => if blank a then squeeze true l else a :: squeeze false l
  | false, a :: l => if blank a then space :: squeeze true l else a :: squeeze false l

/-- `squeeze` and `strip`. -/
def tidy (l : List α) : List α := strip blank (squeeze blank space false l)

variable {blank space}

theorem squeeze_true_cons (a : α) (l : List α) : squeeze blank space true (a :: l) =
    if blank a then squeeze blank space true l else a :: squeeze blank space false l := rfl

theorem squeeze_false_cons (a : α) (l : List α) : squeeze blank space false (a :: l) =
    if blank a then space :: squeeze blank space true l else a :: squeeze blank space false l := rfl

theorem squeeze_cons_of_not {a : α} (ha : ¬blank a = true) (b : Bool) (l : List α) :
    squeeze blank space b (a :: l) = a :: squeeze blank space false l := by
  cases b <;> exact if_neg ha

/-! ## Ink -/

@[simp] theorem ink_nil : ink blank [] = [] := rfl

@[simp] theorem ink_append (l l' : List α) : ink blank (l ++ l') = ink blank l ++ ink blank l' :=
  List.filter_append ..

theorem ink_cons_of_blank {a : α} (ha : blank a = true) (l : List α) : ink blank (a :: l) = ink blank l :=
  List.filter_cons_of_neg (by rw [ha]; decide)

theorem ink_cons_of_not {a : α} (ha : ¬blank a = true) (l : List α) : ink blank (a :: l) = a :: ink blank l :=
  List.filter_cons_of_pos (by rw [Bool.eq_false_iff.mpr ha]; rfl)

theorem ink_eq_nil {l : List α} : ink blank l = [] ↔ ∀ a ∈ l, blank a = true := by
  unfold ink
  rw [List.filter_eq_nil_iff]
  exact forall₂_congr fun a _ => by rw [Bool.not_eq_true, Bool.not_eq_false']

theorem ink_dropWhile (l : List α) : ink blank (l.dropWhile blank) = ink blank l := by
  induction l with
  | nil => rfl
  | cons a l ih =>
      by_cases ha : blank a = true
      · rw [List.dropWhile_cons_of_pos ha, ih, ink_cons_of_blank ha]
      · rw [List.dropWhile_cons_of_neg ha]

theorem ink_reverse (l : List α) : ink blank l.reverse = (ink blank l).reverse :=
  List.filter_reverse ..

@[simp] theorem ink_strip (l : List α) : ink blank (strip blank l) = ink blank l := by
  unfold strip List.rdropWhile
  rw [ink_reverse, ink_dropWhile, ink_reverse, List.reverse_reverse, ink_dropWhile]

@[simp] theorem ink_squeeze (hspace : blank space = true) (b : Bool) (l : List α) :
    ink blank (squeeze blank space b l) = ink blank l := by
  induction l generalizing b with
  | nil => rfl
  | cons a l ih =>
      by_cases ha : blank a = true
      · rw [ink_cons_of_blank ha]
        cases b with
        | false => rw [squeeze_false_cons, if_pos ha, ink_cons_of_blank hspace, ih]
        | true => rw [squeeze_true_cons, if_pos ha, ih]
      · rw [ink_cons_of_not ha, squeeze_cons_of_not ha, ink_cons_of_not ha, ih]

theorem ink_tidy (hspace : blank space = true) (l : List α) : ink blank (tidy blank space l) = ink blank l := by
  unfold tidy
  rw [ink_strip, ink_squeeze hspace]

theorem strip_eq_nil {l : List α} : strip blank l = [] ↔ ink blank l = [] := by
  constructor
  · intro h
    rw [← ink_strip, h, ink_nil]
  · intro h
    unfold strip
    rw [List.dropWhile_eq_nil_iff.mpr (ink_eq_nil.mp h)]
    rfl

/-! ## Lengths -/

theorem dropWhile_around {p : α → Bool} {first : α} (h : p first = false) (front rest : List α) :
    (front ++ first :: rest).dropWhile p = front.dropWhile p ++ first :: rest := by
  induction front with
  | nil =>
      rw [List.nil_append, List.dropWhile_cons_of_neg (by rw [h]; exact Bool.false_ne_true)]
      rfl
  | cons a front ih =>
      rw [List.cons_append, List.dropWhile_cons, List.dropWhile_cons]
      split_ifs
      · exact ih
      · rfl

theorem rdropWhile_around {p : α → Bool} {last : α} (h : p last = false) (front back : List α) :
    (front ++ [last] ++ back).rdropWhile p = front ++ [last] ++ back.rdropWhile p := by
  unfold List.rdropWhile
  rw [List.reverse_append, List.reverse_append, List.reverse_singleton, List.singleton_append, dropWhile_around h,
    List.reverse_append, List.reverse_cons, List.reverse_reverse]

/-- Blanks are taken off around what begins and ends with no blank. -/
theorem strip_around {first last : α} (hfirst : blank first = false) (hlast : blank last = false)
    (front middle back : List α) : strip blank (front ++ (first :: (middle ++ [last]) ++ back)) =
      front.dropWhile blank ++ (first :: (middle ++ [last]) ++ back.rdropWhile blank) := by
  unfold strip
  rw [List.cons_append, dropWhile_around hfirst]
  have hends := rdropWhile_around hlast (front.dropWhile blank ++ first :: middle) back
  simpa only [List.append_assoc, List.cons_append] using hends

theorem length_strip_le (l : List α) : (strip blank l).length ≤ l.length := by
  unfold strip
  exact (List.rdropWhile_prefix blank _).length_le.trans (List.dropWhile_suffix blank).length_le

theorem length_squeeze_le (b : Bool) (l : List α) : (squeeze blank space b l).length ≤ l.length := by
  induction l generalizing b with
  | nil => cases b <;> exact le_rfl
  | cons a l ih =>
      by_cases ha : blank a = true
      · cases b with
        | false =>
            rw [squeeze_false_cons, if_pos ha]
            exact Nat.succ_le_succ (ih true)
        | true =>
            rw [squeeze_true_cons, if_pos ha]
            exact (ih true).trans (Nat.le_succ _)
      · rw [squeeze_cons_of_not ha]
        exact Nat.succ_le_succ (ih false)

theorem length_tidy_le (l : List α) : (tidy blank space l).length ≤ l.length :=
  (length_strip_le _).trans (length_squeeze_le false l)

/-! ## Beginnings -/

/-- What a text is stripped to stays at the front when more follows. -/
theorem strip_isPrefix (l l' : List α) : strip blank l <+: strip blank (l ++ l') := by
  have hright (d : List α) : d.rdropWhile blank <+: (d ++ l').rdropWhile blank := by
    unfold List.rdropWhile
    rw [List.reverse_append, List.dropWhile_append]
    split
    · exact List.prefix_rfl
    · rw [List.reverse_append, List.reverse_reverse]
      exact (List.rdropWhile_prefix blank _).trans (List.prefix_append d _)
  unfold strip
  rw [List.dropWhile_append]
  split
  · rename_i hempty
    rw [List.isEmpty_iff.mp hempty]
    exact List.nil_prefix
  · exact hright _

theorem squeeze_append (b : Bool) (l l' : List α) :
    ∃ b', squeeze blank space b (l ++ l') = squeeze blank space b l ++ squeeze blank space b' l' := by
  induction l generalizing b with
  | nil =>
      refine ⟨b, ?_⟩
      cases b <;> rfl
  | cons a l ih =>
      rw [List.cons_append]
      by_cases ha : blank a = true
      · cases b with
        | false =>
            rw [squeeze_false_cons, squeeze_false_cons, if_pos ha, if_pos ha]
            exact (ih true).imp fun _ h => congrArg _ h
        | true =>
            rw [squeeze_true_cons, squeeze_true_cons, if_pos ha, if_pos ha]
            exact ih true
      · rw [squeeze_cons_of_not ha, squeeze_cons_of_not ha]
        exact (ih false).imp fun _ h => congrArg _ h

/-- What a text is tidied to stays at the front when more follows. -/
theorem tidy_isPrefix (l l' : List α) : tidy blank space l <+: tidy blank space (l ++ l') := by
  obtain ⟨b, hb⟩ : ∃ b, squeeze blank space false (l ++ l') =
      squeeze blank space false l ++ squeeze blank space b l' := squeeze_append false l l'
  unfold tidy
  rw [hb]
  exact strip_isPrefix _ _

/-! ## Tidy texts -/

theorem strip_strip (l : List α) : strip blank (strip blank l) = strip blank l := by
  have hfront : (strip blank l).dropWhile blank = strip blank l := by
    unfold strip
    obtain ⟨rest, hrest⟩ := List.rdropWhile_prefix blank (l.dropWhile blank)
    cases hkept : (l.dropWhile blank).rdropWhile blank with
    | nil => rfl
    | cons a kept =>
        rw [hkept, List.cons_append] at hrest
        have hhead := List.head?_dropWhile_not blank l
        rw [← hrest] at hhead
        exact List.dropWhile_cons_of_neg (by simpa using hhead)
  calc strip blank (strip blank l)
      = ((strip blank l).dropWhile blank).rdropWhile blank := rfl
    _ = (strip blank l).rdropWhile blank := by rw [hfront]
    _ = strip blank l := List.rdropWhile_idempotent blank _

/-- No blank but the space, and no two in a row; the flag says that the letter before was one. -/
def Spaced (blank : α → Bool) (space : α) : Bool → List α → Prop
  | _, [] => True
  | b, a :: l => if blank a = true then b = false ∧ a = space ∧ Spaced blank space true l
      else Spaced blank space false l

theorem spaced_cons_of_blank {a : α} (ha : blank a = true) {b : Bool} {l : List α} :
    Spaced blank space b (a :: l) ↔ b = false ∧ a = space ∧ Spaced blank space true l :=
  Iff.of_eq (if_pos ha)

theorem spaced_cons_of_not {a : α} (ha : ¬blank a = true) {b : Bool} {l : List α} :
    Spaced blank space b (a :: l) ↔ Spaced blank space false l :=
  Iff.of_eq (if_neg ha)

theorem spaced_squeeze (hspace : blank space = true) (b : Bool) (l : List α) :
    Spaced blank space b (squeeze blank space b l) := by
  induction l generalizing b with
  | nil => cases b <;> exact trivial
  | cons a l ih =>
      by_cases ha : blank a = true
      · cases b with
        | false =>
            rw [squeeze_false_cons, if_pos ha, spaced_cons_of_blank hspace]
            exact ⟨rfl, rfl, ih true⟩
        | true =>
            rw [squeeze_true_cons, if_pos ha]
            exact ih true
      · rw [squeeze_cons_of_not ha, spaced_cons_of_not ha]
        exact ih false

theorem squeeze_of_spaced {b : Bool} {l : List α} (h : Spaced blank space b l) : squeeze blank space b l = l := by
  induction l generalizing b with
  | nil => cases b <;> rfl
  | cons a l ih =>
      by_cases ha : blank a = true
      · obtain ⟨rfl, rfl, hl⟩ := (spaced_cons_of_blank ha).mp h
        rw [squeeze_false_cons, if_pos ha, ih hl]
      · rw [squeeze_cons_of_not ha, ih ((spaced_cons_of_not ha).mp h)]

theorem Spaced.of_append {b : Bool} {l l' : List α} (h : Spaced blank space b (l ++ l')) : Spaced blank space b l := by
  induction l generalizing b with
  | nil => exact trivial
  | cons a l ih =>
      rw [List.cons_append] at h
      by_cases ha : blank a = true
      · obtain ⟨hb, hspace, hl⟩ := (spaced_cons_of_blank ha).mp h
        exact (spaced_cons_of_blank ha).mpr ⟨hb, hspace, ih hl⟩
      · exact (spaced_cons_of_not ha).mpr (ih ((spaced_cons_of_not ha).mp h))

theorem Spaced.dropWhile {b : Bool} {l : List α} (h : Spaced blank space b l) :
    Spaced blank space false (l.dropWhile blank) := by
  induction l generalizing b with
  | nil => exact trivial
  | cons a l ih =>
      by_cases ha : blank a = true
      · rw [List.dropWhile_cons_of_pos ha]
        exact ih ((spaced_cons_of_blank ha).mp h).2.2
      · rw [List.dropWhile_cons_of_neg ha, spaced_cons_of_not ha]
        exact (spaced_cons_of_not ha).mp h

theorem tidy_tidy (hspace : blank space = true) (l : List α) :
    tidy blank space (tidy blank space l) = tidy blank space l := by
  have hspaced : Spaced blank space false (tidy blank space l) := by
    obtain ⟨rest, hrest⟩ := List.rdropWhile_prefix blank ((squeeze blank space false l).dropWhile blank)
    have hall : Spaced blank space false (tidy blank space l ++ rest) := by
      unfold tidy strip
      rw [hrest]
      exact (spaced_squeeze hspace false l).dropWhile
    exact hall.of_append
  calc tidy blank space (tidy blank space l)
      = strip blank (squeeze blank space false (tidy blank space l)) := rfl
    _ = strip blank (tidy blank space l) := by rw [squeeze_of_spaced hspaced]
    _ = tidy blank space l := strip_strip _

theorem strip_tidy (l : List α) : strip blank (tidy blank space l) = tidy blank space l := strip_strip _

theorem mem_squeeze {b : Bool} {l : List α} {a : α} (h : a ∈ squeeze blank space b l) : a = space ∨ a ∈ l := by
  induction l generalizing b with
  | nil => cases b <;> exact Or.inr h
  | cons first l ih =>
      cases b with
      | true =>
          rw [squeeze_true_cons] at h
          split_ifs at h
          · exact (ih h).imp_right (List.mem_cons_of_mem _)
          · rcases List.mem_cons.mp h with rfl | h
            · exact Or.inr List.mem_cons_self
            · exact (ih h).imp_right (List.mem_cons_of_mem _)
      | false =>
          rw [squeeze_false_cons] at h
          split_ifs at h
          · rcases List.mem_cons.mp h with rfl | h
            · exact Or.inl rfl
            · exact (ih h).imp_right (List.mem_cons_of_mem _)
          · rcases List.mem_cons.mp h with rfl | h
            · exact Or.inr List.mem_cons_self
            · exact (ih h).imp_right (List.mem_cons_of_mem _)

theorem strip_subset (l : List α) : strip blank l ⊆ l :=
  List.Subset.trans (List.rdropWhile_prefix _ _).subset (List.dropWhile_suffix _).subset

theorem tidy_eq_nil (hspace : blank space = true) {l : List α} : tidy blank space l = [] ↔ ink blank l = [] := by
  unfold tidy
  rw [strip_eq_nil, ink_squeeze hspace]

/-! ## Words -/

/-- The pieces of a text between its blanks. -/
def words (blank : α → Bool) (l : List α) : List (List α) := (l.splitOnP blank).filter fun word => !word.isEmpty

theorem words_cons_of_blank {a : α} (ha : blank a = true) (l : List α) : words blank (a :: l) = words blank l := by
  simp [words, List.splitOnP_cons_eq_if_modifyHead, ha]

theorem words_concat_of_blank {a : α} (ha : blank a = true) (l : List α) : words blank (l ++ [a]) = words blank l := by
  simp [words, List.splitOnP_append_cons l [] ha]

theorem words_dropWhile (l : List α) : words blank (l.dropWhile blank) = words blank l := by
  induction l with
  | nil => rfl
  | cons a l ih =>
      rw [List.dropWhile_cons]
      split
      · rename_i ha
        rw [ih, words_cons_of_blank ha]
      · rfl

/-- Stripping a text leaves its words. -/
theorem words_strip (l : List α) : words blank (strip blank l) = words blank l := by
  rw [← words_dropWhile l]
  unfold strip
  generalize l.dropWhile blank = l
  induction l using List.reverseRecOn with
  | nil => rfl
  | append_singleton l a ih =>
      by_cases ha : blank a = true
      · rw [List.rdropWhile_concat_pos _ _ _ ha, ih, words_concat_of_blank ha]
      · rw [List.rdropWhile_concat_neg _ _ _ ha]

/-- The words of a text are its ink. -/
theorem flatten_words (l : List α) : (words blank l).flatten = ink blank l := by
  have hflatten (pieces : List (List α)) : (pieces.filter fun word => !word.isEmpty).flatten = pieces.flatten := by
    induction pieces with
    | nil => rfl
    | cons piece pieces ih =>
        cases piece with
        | nil => exact ih
        | cons a piece => exact congrArg (a :: piece ++ ·) ih
  unfold words
  rw [hflatten]
  induction l with
  | nil => rfl
  | cons a l ih =>
      rw [List.splitOnP_cons_eq_if_modifyHead]
      split_ifs with ha
      · rw [ink_cons_of_blank ha, List.flatten_cons, ih]
        rfl
      · obtain ⟨piece, pieces, hpieces⟩ := List.exists_cons_of_ne_nil (List.splitOnP_ne_nil blank l)
        rw [ink_cons_of_not ha, ← ih, hpieces]
        rfl

/-! ## Splitting -/

section Splitting

variable [DecidableEq α]

/-- The text between separators, which are found from the left; so many letters of one are still to be passed. -/
def splitGo (sep : List α) : ℕ → List α → List (List α)
  | _, [] => [[]]
  | skip + 1, _ :: l => splitGo sep skip l
  | 0, a :: l =>
      if sep.isPrefixOf (a :: l) then [] :: splitGo sep (sep.length - 1) l
      else (splitGo sep 0 l).modifyHead (a :: ·)

/-- `splitOn` for a separator of any length but zero. -/
def splitOn (sep l : List α) : List (List α) := splitGo sep 0 l

theorem splitGo_zero_cons (sep : List α) (a : α) (l : List α) : splitGo sep 0 (a :: l) =
    if sep.isPrefixOf (a :: l) then [] :: splitGo sep (sep.length - 1) l
    else (splitGo sep 0 l).modifyHead (a :: ·) := rfl

theorem splitGo_eq (sep : List α) (skip : ℕ) (l : List α) : splitGo sep skip l = splitOn sep (l.drop skip) := by
  induction skip generalizing l with
  | zero => rfl
  | succ skip ih =>
      cases l with
      | nil => rfl
      | cons a l => exact ih l

theorem splitOn_cons_of_prefix {sep l : List α} (hsep : sep ≠ []) :
    splitOn sep (sep ++ l) = [] :: splitOn sep l := by
  obtain ⟨a, rest, rfl⟩ := List.exists_cons_of_ne_nil hsep
  have hprefix : (a :: rest).isPrefixOf (a :: (rest ++ l)) = true :=
    List.isPrefixOf_iff_prefix.mpr (List.prefix_append (a :: rest) l)
  unfold splitOn
  rw [List.cons_append, splitGo_zero_cons, if_pos hprefix, splitGo_eq, List.length_cons, Nat.add_sub_cancel,
    List.drop_left]
  rfl

theorem splitOn_cons {sep l : List α} {a : α} (h : ¬sep <+: a :: l) :
    splitOn sep (a :: l) = (splitOn sep l).modifyHead (a :: ·) := by
  unfold splitOn
  rw [splitGo_zero_cons, if_neg fun hprefix => h (List.isPrefixOf_iff_prefix.mp hprefix)]

theorem splitGo_ne_nil (sep : List α) (skip : ℕ) (l : List α) : splitGo sep skip l ≠ [] := by
  induction l generalizing skip with
  | nil => cases skip <;> exact List.cons_ne_nil _ _
  | cons a l ih =>
      cases skip with
      | zero =>
          rw [splitGo_zero_cons]
          split
          · exact List.cons_ne_nil _ _
          · intro h
            exact ih 0 (List.modifyHead_eq_nil_iff.mp h)
      | succ skip => exact ih skip

/-- What holds of the empty text and its one piece, and stays true with a separator and with a letter more. -/
theorem splitOn_induction {sep : List α} (hsep : sep ≠ []) {P : List α → List (List α) → Prop} (hnil : P [] [[]])
    (hfound : ∀ l pieces, P l pieces → P (sep ++ l) ([] :: pieces))
    (hletter : ∀ a l piece pieces, ¬sep <+: a :: l → P l (piece :: pieces) → P (a :: l) ((a :: piece) :: pieces))
    (l : List α) : P l (splitOn sep l) := by
  induction hlength : l.length using Nat.strong_induction_on generalizing l with
  | _ n ih =>
      subst hlength
      cases l with
      | nil => exact hnil
      | cons a l =>
          by_cases hprefix : sep <+: a :: l
          · obtain ⟨rest, hrest⟩ := hprefix
            have hlt : rest.length < (a :: l).length := by
              have hpos := List.length_pos_iff.mpr hsep
              rw [← hrest, List.length_append]
              omega
            rw [← hrest, splitOn_cons_of_prefix hsep]
            exact hfound rest _ (ih _ hlt rest rfl)
          · have htail := ih l.length (Nat.lt_succ_self _) l rfl
            rw [splitOn_cons hprefix]
            obtain ⟨piece, pieces, hpieces⟩ := List.exists_cons_of_ne_nil (splitGo_ne_nil sep 0 l)
            unfold splitOn at htail ⊢
            rw [hpieces] at htail ⊢
            exact hletter a l piece pieces hprefix htail

theorem splitOn_of_not_infix {sep l : List α} (h : ¬sep <:+: l) : splitOn sep l = [l] := by
  induction l with
  | nil => rfl
  | cons a l ih =>
      rw [splitOn_cons fun hprefix => h hprefix.isInfix, ih fun hcontains => h (List.infix_cons hcontains)]
      rfl

/-- A separator of blanks takes no ink away. -/
theorem ink_splitOn {sep : List α} (hsep : sep ≠ []) (hblank : ink blank sep = []) (l : List α) :
    ink blank (splitOn sep l).flatten = ink blank l := by
  refine splitOn_induction (P := fun l pieces => ink blank pieces.flatten = ink blank l) hsep rfl
    (fun l pieces h => ?_) (fun a l piece pieces _ h => ?_) l
  · rw [ink_append, hblank, List.nil_append]
    exact h
  · rw [List.flatten_cons] at h ⊢
    rw [List.cons_append]
    by_cases ha : blank a = true
    · rw [ink_cons_of_blank ha, ink_cons_of_blank ha, h]
    · rw [ink_cons_of_not ha, ink_cons_of_not ha, h]

/-- A separator takes its ink away wherever it is found. -/
theorem ink_splitOn_sublist {sep : List α} (hsep : sep ≠ []) (l : List α) :
    (ink blank (splitOn sep l).flatten).Sublist (ink blank l) ∧
      (ink blank sep ≠ [] → sep <:+: l → (ink blank (splitOn sep l).flatten).length < (ink blank l).length) := by
  refine splitOn_induction (P := fun l pieces => (ink blank pieces.flatten).Sublist (ink blank l) ∧
      (ink blank sep ≠ [] → sep <:+: l → (ink blank pieces.flatten).length < (ink blank l).length)) hsep
    ⟨List.Sublist.refl _, fun _ hcontains => absurd (List.infix_nil.mp hcontains) hsep⟩ (fun l pieces h => ?_)
    (fun a l piece pieces hprefix h => ?_) l
  · rw [ink_append]
    refine ⟨h.1.trans (List.sublist_append_right _ _), fun hink _ => ?_⟩
    have hle := h.1.length_le
    have hpos := List.length_pos_iff.mpr hink
    rw [List.length_append]
    exact Nat.lt_of_le_of_lt hle (Nat.lt_add_of_pos_left hpos)
  · rw [List.flatten_cons, List.cons_append, ← List.flatten_cons]
    have hcontains : sep <:+: a :: l → sep <:+: l := fun h => (List.infix_cons_iff.mp h).resolve_left hprefix
    by_cases ha : blank a = true
    · rw [ink_cons_of_blank ha, ink_cons_of_blank ha]
      exact ⟨h.1, fun hink hfound => h.2 hink (hcontains hfound)⟩
    · rw [ink_cons_of_not ha, ink_cons_of_not ha]
      exact ⟨h.1.cons_cons a, fun hink hfound => Nat.succ_lt_succ (h.2 hink (hcontains hfound))⟩

theorem flatten_splitOn_sublist {sep : List α} (hsep : sep ≠ []) (l : List α) :
    (splitOn sep l).flatten.Sublist l := by
  have hall (l : List α) : ink (fun _ => false) l = l := List.filter_eq_self.mpr fun _ _ => rfl
  have h : (ink (fun _ => false) (splitOn sep l).flatten).Sublist (ink (fun _ => false) l) :=
    (ink_splitOn_sublist hsep l).1
  rwa [hall, hall] at h

theorem length_le_of_mem_splitOn {sep : List α} (hsep : sep ≠ []) {l piece : List α} (h : piece ∈ splitOn sep l) :
    piece.length ≤ l.length :=
  (List.sublist_flatten_of_mem h).length_le.trans (flatten_splitOn_sublist hsep l).length_le

/-! ## Splitting as the text comes in -/

variable {sep : List α}

theorem splitOn_ne_nil (sep l : List α) : splitOn sep l ≠ [] := splitGo_ne_nil sep 0 l

/-- A text is split again from the last piece on when more comes. -/
theorem splitOn_append (hsep : sep ≠ []) (l more : List α) :
    splitOn sep (l ++ more) = (splitOn sep l).dropLast ++ splitOn sep ((splitOn sep l).getLastD [] ++ more) := by
  -- with two pieces the text is as long as the separator, so that none begins with a letter of it and ends in `more`
  have hall : splitOn sep l ≠ [] ∧ (∀ piece rest, splitOn sep l = piece :: rest → rest ≠ [] → sep.length ≤ l.length) ∧
      (∀ piece, splitOn sep l = [piece] → piece = l) ∧
      splitOn sep (l ++ more) = (splitOn sep l).dropLast ++ splitOn sep ((splitOn sep l).getLastD [] ++ more) := by
    refine splitOn_induction (P := fun l pieces => pieces ≠ [] ∧
      (∀ piece rest, pieces = piece :: rest → rest ≠ [] → sep.length ≤ l.length) ∧
      (∀ piece, pieces = [piece] → piece = l) ∧
      splitOn sep (l ++ more) = pieces.dropLast ++ splitOn sep (pieces.getLastD [] ++ more)) hsep ?_ ?_ ?_ l
    · exact ⟨List.cons_ne_nil _ _, fun piece rest h hrest => absurd (List.cons.inj h).2.symm hrest,
        fun piece h => (List.cons.inj h).1.symm, rfl⟩
    · intro l pieces ⟨hne, _, _, hmore⟩
      obtain ⟨piece, rest, rfl⟩ := List.exists_cons_of_ne_nil hne
      refine ⟨List.cons_ne_nil _ _, fun _ _ _ _ => ?_, fun _ h => absurd (List.cons.inj h).2 (List.cons_ne_nil _ _), ?_⟩
      · rw [List.length_append]
        exact Nat.le_add_right _ _
      · rw [List.append_assoc, splitOn_cons_of_prefix hsep, hmore]
        rfl
    · intro a l piece pieces hprefix ⟨_, hlong, hone, hmore⟩
      refine ⟨List.cons_ne_nil _ _, fun first rest h hrest => ?_, fun first h => ?_, ?_⟩
      · obtain rfl := (List.cons.inj h).2
        exact (hlong piece _ rfl hrest).trans (Nat.le_succ _)
      · obtain ⟨rfl, hnone⟩ := List.cons.inj h
        exact congrArg (a :: ·) (hone piece (congrArg (piece :: ·) hnone))
      · cases pieces with
        | nil =>
            obtain rfl := hone piece rfl
            rfl
        | cons second rest =>
            have hstart : ¬sep <+: a :: (l ++ more) := fun h =>
              hprefix (List.prefix_of_prefix_length_le h (List.prefix_append (a :: l) more)
                ((hlong piece _ rfl (List.cons_ne_nil _ _)).trans (Nat.le_succ _)))
            rw [List.cons_append, splitOn_cons hstart, hmore]
            rfl
  exact hall.2.2.2

/-- The last piece has no separator. -/
theorem splitOn_getLastD (hsep : sep ≠ []) (l : List α) :
    splitOn sep ((splitOn sep l).getLastD []) = [(splitOn sep l).getLastD []] := by
  have h := splitOn_append hsep l []
  rw [List.append_nil, List.append_nil] at h
  have hparts : splitOn sep l = (splitOn sep l).dropLast ++ [(splitOn sep l).getLastD []] := by
    rw [List.getLastD_eq_getLast?, List.getLast?_eq_some_getLast (splitOn_ne_nil sep l), Option.getD_some,
      List.dropLast_append_getLast]
  exact (List.append_cancel_left (hparts.symm.trans h)).symm

/-- A block with a separator behind it, in which none begins before, is the first piece. -/
theorem splitOn_block {block : List α} (h : ¬sep <:+: block ++ sep.dropLast) (hsep : sep ≠ []) (l : List α) :
    splitOn sep (block ++ (sep ++ l)) = block :: splitOn sep l := by
  induction block with
  | nil => exact splitOn_cons_of_prefix hsep
  | cons a block ih =>
      have hrest : ¬sep <:+: block ++ sep.dropLast := fun hcontains => h (List.infix_cons hcontains)
      have hstart : ¬sep <+: a :: (block ++ (sep ++ l)) := by
        intro hprefix
        refine h (List.prefix_of_prefix_length_le hprefix ?_ ?_).isInfix
        · refine ⟨sep.getLast hsep :: l, ?_⟩
          rw [List.append_assoc, List.append_cons sep.dropLast, List.dropLast_append_getLast]
          rfl
        · have hpos := List.length_pos_iff.mpr hsep
          rw [List.length_append, List.length_cons, List.length_dropLast]
          omega
      rw [List.cons_append, splitOn_cons hstart, ih hrest]
      rfl

theorem splitOn_blocks (hsep : sep ≠ []) {blocks : List (List α)}
    (h : ∀ block ∈ blocks, ¬sep <:+: block ++ sep.dropLast)
    (l : List α) : splitOn sep (blocks.flatMap (· ++ sep) ++ l) = blocks ++ splitOn sep l := by
  induction blocks with
  | nil => rfl
  | cons block blocks ih =>
      obtain ⟨hblock, hrest⟩ := List.forall_mem_cons.mp h
      rw [List.flatMap_cons, List.append_assoc, List.append_assoc, splitOn_block hblock hsep, ih hrest]
      rfl

omit [DecidableEq α] in
/-- Two of the letters do not follow each other where no line is empty. -/
theorem not_twice {a : α} {lines : List (List α)} (hlines : ∀ line ∈ lines, line ≠ [] ∧ a ∉ line) :
    ¬[a, a] <:+: lines.flatMap (· ++ [a]) := by
  have hchain : (lines.flatMap (· ++ [a])).IsChain fun b c => ¬(b = a ∧ c = a) := by
    induction lines with
    | nil => exact .nil
    | cons line lines ih =>
        obtain ⟨⟨hne, hline⟩, hrest⟩ := List.forall_mem_cons.mp hlines
        have hplain : line.IsChain fun b c => ¬(b = a ∧ c = a) := by
          refine List.Pairwise.isChain (List.pairwise_of_forall_mem_list fun b hb c _ => ?_)
          rintro ⟨rfl, -⟩
          exact hline hb
        have hends : (line ++ [a]).IsChain fun b c => ¬(b = a ∧ c = a) := by
          refine hplain.append (.singleton _) fun b hb c _ => ?_
          rintro ⟨rfl, -⟩
          exact hline (List.mem_of_mem_getLast? hb)
        rw [List.flatMap_cons]
        refine hends.append (ih hrest) fun b _ c hc => ?_
        rintro ⟨-, rfl⟩
        cases lines with
        | nil => cases hc
        | cons second lines =>
            obtain ⟨hsecond, hnone⟩ := hrest second List.mem_cons_self
            obtain ⟨first, rest, rfl⟩ := List.exists_cons_of_ne_nil hsecond
            obtain rfl := Option.some.inj hc
            exact hnone List.mem_cons_self
  intro hcontains
  have htwo := hchain.infix hcontains
  exact (List.isChain_cons_cons.mp htwo).1 ⟨rfl, rfl⟩

end Splitting

end Spacing
