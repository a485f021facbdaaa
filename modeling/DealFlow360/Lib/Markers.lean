import Mathlib.Data.List.Infix

/-!
# Markers in texts

Where a marker occurs in a text that is put together of parts. A separator that
the marker does not have keeps its occurrences in the parts. A marker whose
first letter it does not have again does not overlap itself.

An occurrence of a marker in two texts put together lies in the front, in the
back, or across the seam; the lemmas say when the last case is excluded, by a
separator the marker does not contain or by the letters at the seam. `cut`
finds the first occurrence. From these follow where a marker can be in a text
that is put together of known parts, which is how forged fences and code fences
are told from real ones.
-/

namespace Markers

variable {α : Type*} {marker : List α}

/-- The first letter of the marker is not in the rest of it. -/
def Headed (marker : List α) : Prop := ∃ first rest, marker = first :: rest ∧ first ∉ rest

theorem Headed.ne_nil (h : Headed marker) : marker ≠ [] := by
  obtain ⟨first, rest, rfl, -⟩ := h
  exact List.cons_ne_nil _ _

/-- A marker that follows a text and begins with it as well begins the text. -/
theorem Headed.isPrefix (h : Headed marker) {text tail tail' : List α} (hne : text ≠ [])
    (heq : text ++ (marker ++ tail) = marker ++ tail') : ∃ middle, text = marker ++ middle ∧
      tail' = middle ++ (marker ++ tail) := by
  rcases List.append_eq_append_iff.mp heq with ⟨overlap, hmarker, hrest⟩ | ⟨middle, htext, hrest⟩
  · cases overlap with
    | nil =>
        rw [List.append_nil] at hmarker
        exact ⟨[], by rw [hmarker, List.append_nil], hrest.symm⟩
    | cons letter overlap =>
        obtain ⟨first, rest, rfl, hfirst⟩ := h
        obtain rfl : first = letter := (List.cons.inj hrest).1
        obtain ⟨head, text, rfl⟩ := List.exists_cons_of_ne_nil hne
        have hrest : rest = text ++ first :: overlap := (List.cons.inj hmarker).2
        exact absurd (hrest ▸ List.mem_append_right _ List.mem_cons_self) hfirst
  · exact ⟨middle, htext, hrest⟩

variable {sep : α}

/-- A marker without the separator is on one side of it. -/
theorem infix_append_cons (hsep : sep ∉ marker) {left right : List α} :
    marker <:+: left ++ sep :: right ↔ marker <:+: left ∨ marker <:+: right := by
  constructor
  · rintro ⟨before, after, heq⟩
    rcases List.append_eq_append_iff.mp heq with ⟨rest, hleft, -⟩ | ⟨rest, hends, hright⟩
    · exact Or.inl ⟨before, rest, hleft.symm⟩
    · cases rest with
      | nil => exact Or.inl ⟨before, [], by rw [List.append_nil, hends, List.append_nil]⟩
      | cons letter rest =>
          obtain ⟨rfl, htail⟩ := List.cons.inj hright
          rcases List.append_eq_append_iff.mp hends with ⟨middle, -, hmarker⟩ | ⟨middle, -, hmiddle⟩
          · exact absurd (hmarker ▸ List.mem_append_right _ List.mem_cons_self) hsep
          · cases middle with
            | nil =>
                rw [List.nil_append] at hmiddle
                exact absurd (hmiddle ▸ List.mem_cons_self) hsep
            | cons letter middle =>
                obtain ⟨-, hrest⟩ := List.cons.inj hmiddle
                exact Or.inr ⟨middle, after, by rw [htail, hrest]; rfl⟩
  · rintro (h | h)
    · exact h.trans (List.prefix_append _ _).isInfix
    · exact h.trans ((List.suffix_cons _ _).trans (List.suffix_append _ _)).isInfix

/-- A marker without the separator that ends a text ends what is behind the separator. -/
theorem suffix_of_suffix_append_cons (hsep : sep ∉ marker) {left right : List α} (h : marker <:+ left ++ sep :: right) :
    marker <:+ right := by
  rcases List.suffix_or_suffix_of_suffix h (List.suffix_append left (sep :: right)) with hright | hmarker
  · rcases List.suffix_cons_iff.mp hright with rfl | hright
    · exact absurd List.mem_cons_self hsep
    · exact hright
  · exact absurd (hmarker.subset List.mem_cons_self) hsep

/-- A marker is only at the beginning of a text that has it nowhere behind the separator. -/
theorem eq_nil_of_marker (hsep : sep ∉ marker) {before after rest : List α} (hrest : ¬marker <:+: rest)
    (heq : before ++ marker ++ after = marker ++ sep :: rest) : before = [] := by
  rw [List.append_assoc] at heq
  rcases List.append_eq_append_iff.mp heq with ⟨overlap, hmarker, hbehind⟩ | ⟨middle, -, hmiddle⟩
  · by_contra hbefore
    have hlength := congrArg List.length hmarker
    rw [List.length_append] at hlength
    have hpositive := List.length_pos_iff.mpr hbefore
    have hshort : (overlap ++ [sep]).length ≤ marker.length := by
      rw [List.length_append, List.length_singleton]
      omega
    have hoverlap : overlap ++ [sep] <+: marker ++ after :=
      ⟨rest, by rw [hbehind, List.append_assoc, List.singleton_append]⟩
    have hinside := List.prefix_of_prefix_length_le hoverlap (List.prefix_append marker after) hshort
    exact hsep (hinside.subset (List.mem_append_right _ List.mem_cons_self))
  · cases middle with
    | nil =>
        cases marker with
        | nil => exact absurd (List.nil_infix) hrest
        | cons letter marker =>
            obtain ⟨rfl, -⟩ := List.cons.inj hmiddle
            exact absurd List.mem_cons_self hsep
    | cons letter middle =>
        obtain ⟨-, hbehind⟩ := List.cons.inj hmiddle
        exact absurd ⟨middle, after, by rw [List.append_assoc, hbehind]; rfl⟩ hrest

/-- A marker is only at the end of a text that has it nowhere before the separator. -/
theorem eq_nil_of_marker_end (hsep : sep ∉ marker) {before after rest : List α} (hrest : ¬marker <:+: rest)
    (heq : before ++ marker ++ after = rest ++ sep :: marker) : after = [] := by
  have hreverse := congrArg List.reverse heq
  rw [List.reverse_append, List.reverse_append, List.reverse_append, List.reverse_cons, List.append_assoc,
    ← List.append_assoc] at hreverse
  rw [List.singleton_append] at hreverse
  have hsep : sep ∉ marker.reverse := fun h => hsep (List.mem_reverse.mp h)
  have hrest : ¬marker.reverse <:+: rest.reverse := fun h => hrest (List.reverse_infix.mp h)
  exact List.reverse_eq_nil_iff.mp (eq_nil_of_marker hsep hrest hreverse)

/-! ## The first occurrence -/

section Cut

variable [DecidableEq α] (marker)

/-- What is before the first occurrence of the marker, and what is behind it. -/
def cut : List α → Option (List α × List α)
  | [] => if marker = [] then some ([], []) else none
  | a :: text =>
      if marker <+: a :: text then some ([], (a :: text).drop marker.length)
      else (cut text).map fun parts => (a :: parts.1, parts.2)

variable {marker}

theorem cut_nil : cut marker [] = if marker = [] then some ([], []) else none := rfl

theorem cut_cons (a : α) (text : List α) :
    cut marker (a :: text) = if marker <+: a :: text then some ([], (a :: text).drop marker.length)
      else (cut marker text).map fun parts => (a :: parts.1, parts.2) := rfl

theorem cut_of_begins {text : List α} (h : marker <+: text) : cut marker text = some ([], text.drop marker.length) := by
  cases text with
  | nil =>
      obtain rfl := List.prefix_nil.mp h
      rfl
  | cons a text => exact if_pos h

theorem cut_eq_some {text before after : List α} (h : cut marker text = some (before, after)) :
    text = before ++ (marker ++ after) := by
  induction text generalizing before with
  | nil =>
      rw [cut_nil] at h
      split_ifs at h with hmarker
      cases h
      rw [hmarker]
      rfl
  | cons a text ih =>
      rw [cut_cons] at h
      split_ifs at h with hleads
      · cases h
        obtain ⟨after, hafter⟩ := hleads
        rw [← hafter, List.drop_left]
        rfl
      · obtain ⟨⟨front, back⟩, hcut, hparts⟩ := Option.map_eq_some_iff.mp h
        cases hparts
        rw [ih hcut]
        rfl

theorem cut_isSome_iff {text : List α} : (cut marker text).isSome = true ↔ marker <:+: text := by
  constructor
  · intro h
    obtain ⟨⟨before, after⟩, hcut⟩ := Option.isSome_iff_exists.mp h
    exact ⟨before, after, by rw [List.append_assoc, ← cut_eq_some hcut]⟩
  · intro h
    induction text with
    | nil =>
        rw [cut_nil, if_pos (List.infix_nil.mp h)]
        rfl
    | cons a text ih =>
        rw [cut_cons]
        split_ifs with hleads
        · rfl
        · rw [Option.isSome_map]
          exact ih ((List.infix_cons_iff.mp h).resolve_left hleads)

/-- More text does not change where the first occurrence is. -/
theorem cut_append {text before after : List α} (h : cut marker text = some (before, after)) (more : List α) :
    cut marker (text ++ more) = some (before, after ++ more) := by
  induction text generalizing before with
  | nil =>
      rw [cut_nil] at h
      split_ifs at h with hmarker
      cases h
      rw [List.nil_append, cut_of_begins (hmarker ▸ List.nil_prefix), hmarker]
      rfl
  | cons a text ih =>
      have htext := cut_eq_some h
      rw [cut_cons] at h
      split_ifs at h with hleads
      · cases h
        rw [cut_of_begins (hleads.trans (List.prefix_append _ _)), List.drop_append_of_le_length hleads.length_le]
      · obtain ⟨⟨front, back⟩, hcut, hparts⟩ := Option.map_eq_some_iff.mp h
        cases hparts
        have hlonger : ¬marker <+: (a :: text) ++ more := by
          intro hmore
          refine hleads (List.prefix_of_prefix_length_le hmore (List.prefix_append _ _) ?_)
          rw [htext, List.length_append, List.length_append]
          omega
        rw [List.cons_append] at hlonger ⊢
        rw [cut_cons, if_neg hlonger, ih hcut]
        rfl

/-- A marker whose letters are not in a text is found behind it. -/
theorem cut_behind {front : List α} (h : ∀ a ∈ marker, a ∉ front) (hne : marker ≠ []) (text : List α) :
    cut marker (front ++ text) = (cut marker text).map fun parts => (front ++ parts.1, parts.2) := by
  induction front with
  | nil =>
      rw [List.nil_append]
      exact Option.map_id'.symm
  | cons a front ih =>
      obtain ⟨first, rest, rfl⟩ := List.exists_cons_of_ne_nil hne
      have hstart : ¬first :: rest <+: a :: (front ++ text) := by
        rintro ⟨tail, htail⟩
        exact h first List.mem_cons_self ((List.cons.inj htail).1 ▸ List.mem_cons_self)
      rw [List.cons_append, cut_cons, if_neg hstart, ih fun b hb hmem => h b hb (List.mem_cons_of_mem _ hmem),
        Option.map_map]
      rfl

/-- The first occurrence is not behind another one. -/
theorem length_le_of_cut {text before after front back : List α} (h : cut marker text = some (before, after))
    (htext : text = front ++ (marker ++ back)) : before.length ≤ front.length := by
  induction front generalizing text before with
  | nil =>
      rw [htext, List.nil_append, cut_of_begins (List.prefix_append _ _)] at h
      cases h
      exact Nat.le_refl 0
  | cons a front ih =>
      subst htext
      rw [List.cons_append, cut_cons] at h
      split_ifs at h
      · cases h
        exact Nat.zero_le _
      · obtain ⟨⟨left, right⟩, hcut, hparts⟩ := Option.map_eq_some_iff.mp h
        cases hparts
        exact Nat.succ_le_succ (ih hcut rfl)

/-- A text without the marker, whose last letter the marker does not have, is all that is before it. -/
theorem cut_at_end {last : α} (hlast : last ∉ marker) {front : List α} (h : ¬marker <:+: front ++ [last])
    (back : List α) :
    cut marker (front ++ [last] ++ (marker ++ back)) = some (front ++ [last], back) := by
  have hstart {front : List α} (h : ¬marker <:+: front ++ [last]) :
      ¬marker <+: front ++ [last] ++ (marker ++ back) := by
    intro hleads
    rcases Nat.le_total marker.length (front ++ [last]).length with hshort | hlong
    · exact h (List.prefix_of_prefix_length_le hleads (List.prefix_append _ _) hshort).isInfix
    · have hinside := List.prefix_of_prefix_length_le (List.prefix_append _ _) hleads hlong
      exact hlast (hinside.subset (List.mem_append_right _ List.mem_cons_self))
  induction front with
  | nil =>
      have hbegins := hstart h
      rw [List.nil_append, List.singleton_append] at hbegins ⊢
      rw [cut_cons, if_neg hbegins, cut_of_begins (List.prefix_append _ _), List.drop_left]
      rfl
  | cons a front ih =>
      have hbegins := hstart h
      have hrest : ¬marker <:+: front ++ [last] := fun hcontains => h (hcontains.trans (List.suffix_cons _ _).isInfix)
      rw [List.cons_append, List.cons_append] at hbegins ⊢
      rw [cut_cons, if_neg hbegins, ih hrest]
      rfl

end Cut

/-- A part that neither begins nor ends with letters of what is around a text is in the text. -/
theorem inside_of_around {left text right front part back : List α} {first last : α} (hfirst : first ∉ left)
    (hlast : last ∉ right) (h : left ++ (text ++ right) = front ++ (first :: (part ++ last :: back))) :
    ∃ before after, text = before ++ (first :: (part ++ last :: after)) ∧ back = after ++ right := by
  have hbehind : ∃ before, text ++ right = before ++ (first :: (part ++ last :: back)) := by
    rcases List.append_eq_append_iff.mp h with ⟨before, -, hrest⟩ | ⟨more, hleft, hrest⟩
    · exact ⟨before, hrest⟩
    · cases more with
      | nil => exact ⟨[], hrest.symm⟩
      | cons letter more =>
          obtain rfl := (List.cons.inj hrest).1
          exact absurd (hleft ▸ List.mem_append_right _ List.mem_cons_self) hfirst
  obtain ⟨before, hbefore⟩ := hbehind
  have hsplit : text ++ right = (before ++ (first :: (part ++ [last]))) ++ back := by
    rw [hbefore]
    simp only [List.append_assoc, List.cons_append, List.nil_append]
  rcases List.append_eq_append_iff.mp hsplit with ⟨more, hends, hright⟩ | ⟨after, htext, hback⟩
  · rcases List.eq_nil_or_concat more with rfl | ⟨init, letter, rfl⟩
    · refine ⟨before, [], ?_, hright.symm⟩
      rw [List.append_nil] at hends
      rw [← hends]
    · have hletter := congrArg List.getLast? hends
      rw [List.concat_eq_append, ← List.append_assoc, List.getLast?_concat, ← List.cons_append, ← List.append_assoc,
        List.getLast?_concat] at hletter
      obtain rfl := Option.some.inj hletter
      refine absurd (hright ▸ List.mem_append_left _ ?_) hlast
      rw [List.concat_eq_append]
      exact List.mem_append_right _ List.mem_cons_self
  · refine ⟨before, after, ?_, hback⟩
    rw [htext]
    simp only [List.append_assoc, List.cons_append, List.nil_append]

end Markers
