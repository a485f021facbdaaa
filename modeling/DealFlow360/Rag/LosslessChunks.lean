import DealFlow360.Rag.Chunker

/-!
# What the chunks hold of a text

A chunk is as long as the size allows at most, and what it repeats of the chunk
before is at its front. Merging loses nothing but white space. Splitting loses
the full stop of every separator of sentences, and it separates sentences in a
line that is longer than a chunk.

A `Part` is a chunk's text apart into what it repeats and what is fresh. Three
statements are put together:

- splitting keeps the ink of a text but for the full stops of the separators of
  sentences, and keeps it whole where no line that is longer than a chunk has
  such a separator;
- merging keeps the ink of the pieces (`Merged.mergePiece`), within the size
  and with an overlap of the allowed length;
- trimming and numbering change no ink.

`chunk_eq_some` says what `chunk` answers, `well_chunked_iff` what follows of
the text: sufficient for every options, and exact where there is no overlap.
`full_stop_lost` shows the separator that is lost.
-/

namespace DealFlow360.Rag

open Events (Text isSpaceUnit trimText)
open Spacing

theorem ink_trimText (text : Text) : ink isSpaceUnit (trimText text) = ink isSpaceUnit text := ink_strip text

theorem ink_collapse (text : Text) : ink isSpaceUnit (collapse text) = ink isSpaceUnit text := ink_tidy (by decide) text

theorem ink_unixLines (text : Text) : ink isSpaceUnit (unixLines text) = ink isSpaceUnit text := by
  fun_induction unixLines text with
  | case1 rest ih =>
      rw [ink_cons_of_blank (by decide), ih, ink_cons_of_blank (by decide), ink_cons_of_blank (by decide)]
  | case2 unit rest _ ih =>
      unfold ink at ih ⊢
      rw [List.filter_cons, List.filter_cons, ih]
  | case3 => rfl

namespace RecursiveCharacterChunker

variable {chunker : RecursiveCharacterChunker}

/-! ## Pieces -/

theorem split_of_length_le {remaining : List Text} {text : Text} (h : text.length ≤ chunker.chunkSize) :
    chunker.split remaining text = [text] := by
  cases remaining <;> rw [split, if_pos h]

theorem split_cons {separator : Text} {rest : List Text} {text : Text} (h : ¬text.length ≤ chunker.chunkSize) :
    chunker.split (separator :: rest) text =
      ((splitOn separator text).filter (· ≠ [])).flatMap (chunker.split rest) := by
  rw [split, if_neg h]
  congr 1
  funext part
  split
  · rename_i hshort
    rw [split_of_length_le hshort]
  · rfl

theorem length_split_le (remaining : List Text) (text : Text) :
    ∀ piece ∈ chunker.split remaining text, piece.length ≤ chunker.chunkSize := by
  induction remaining generalizing text with
  | nil =>
      rw [split]
      split
      · rename_i hshort
        intro piece hpiece
        rw [List.mem_singleton.mp hpiece]
        exact hshort
      · intro piece hpiece
        obtain ⟨j, -, rfl⟩ := List.mem_map.mp hpiece
        exact List.length_take_le _ _
  | cons separator rest ih =>
      by_cases hshort : text.length ≤ chunker.chunkSize
      · rw [split_of_length_le hshort]
        intro piece hpiece
        rw [List.mem_singleton.mp hpiece]
        exact hshort
      · rw [split_cons hshort]
        intro piece hpiece
        obtain ⟨part, -, hpiece⟩ := List.mem_flatMap.mp hpiece
        exact ih part piece hpiece

/-! ## What splitting loses -/

/-- The pieces have letters of the text only, and all of them exactly where `keeps` holds. -/
structure Keeps (keeps : Text → Prop) (pieces : Text → List Text) (text : Text) : Prop where
  sublist : (ink isSpaceUnit (pieces text).flatten).Sublist (ink isSpaceUnit text)
  eq_iff : ink isSpaceUnit (pieces text).flatten = ink isSpaceUnit text ↔ keeps text

theorem append_eq_append_iff_of_sublist {a a' b b' : Text} (ha : a.Sublist a') (hb : b.Sublist b') :
    a ++ b = a' ++ b' ↔ a = a' ∧ b = b' := by
  refine ⟨fun h => ?_, fun h => by rw [h.1, h.2]⟩
  have hlength := congrArg List.length h
  rw [List.length_append, List.length_append] at hlength
  have hle := ha.length_le
  have hle' := hb.length_le
  exact ⟨ha.eq_of_length (by omega), hb.eq_of_length (by omega)⟩

/-- Parts that are split one by one. -/
theorem keeps_parts {keeps : Text → Prop} {pieces : Text → List Text} (h : ∀ part, Keeps keeps pieces part)
    (parts : List Text) :
    (ink isSpaceUnit ((parts.filter (· ≠ [])).flatMap pieces).flatten).Sublist (ink isSpaceUnit parts.flatten) ∧
      (ink isSpaceUnit ((parts.filter (· ≠ [])).flatMap pieces).flatten = ink isSpaceUnit parts.flatten ↔
        ∀ part ∈ parts, keeps part) := by
  induction parts with
  | nil => exact ⟨List.Sublist.refl _, iff_of_true rfl (List.forall_mem_nil _)⟩
  | cons part parts ih =>
      rw [List.forall_mem_cons, List.flatten_cons, ink_append]
      by_cases hpart : part = []
      · have hnone : ink isSpaceUnit (pieces []).flatten = ink isSpaceUnit [] :=
          List.sublist_nil.mp (h []).sublist
        rw [hpart, List.filter_cons_of_neg (by simp), ink_nil, List.nil_append,
          and_iff_right ((h []).eq_iff.mp hnone)]
        exact ih
      · rw [List.filter_cons_of_pos (by simpa using hpart), List.flatMap_cons, List.flatten_append, ink_append,
          append_eq_append_iff_of_sublist (h part).sublist ih.1, (h part).eq_iff, ih.2]
        exact ⟨(h part).sublist.append ih.1, Iff.rfl⟩

/-- A separator of white space loses what its parts lose. -/
theorem keeps_split_cons {keeps : Text → Prop} (separator : Text) {rest : List Text} (hne : separator ≠ [])
    (hblank : ink isSpaceUnit separator = []) (h : ∀ part, Keeps keeps (chunker.split rest) part) (text : Text) :
    Keeps (fun text => chunker.chunkSize < text.length → ∀ part ∈ splitOn separator text, keeps part)
      (chunker.split (separator :: rest)) text := by
  by_cases hshort : text.length ≤ chunker.chunkSize
  · have hsame : ink isSpaceUnit (chunker.split (separator :: rest) text).flatten = ink isSpaceUnit text := by
      rw [split_of_length_le hshort, List.flatten_singleton]
    exact ⟨hsame ▸ List.Sublist.refl _, iff_of_true hsame fun hlong => absurd hlong (not_lt.mpr hshort)⟩
  · obtain ⟨hsublist, hiff⟩ := keeps_parts h (splitOn separator text)
    rw [ink_splitOn hne hblank, ← split_cons hshort] at hsublist hiff
    exact ⟨hsublist, hiff.trans (imp_iff_right (not_le.mp hshort)).symm⟩

/-- Slices lose nothing. -/
theorem keeps_slices (hsize : 0 < chunker.chunkSize) (text : Text) :
    Keeps (fun _ => True) (chunker.split []) text := by
  have hsame : (chunker.split [] text).flatten = text := by
    rw [split]
    split
    · rw [List.flatten_singleton]
    · have hpages := Paging.pages_all hsize text
      unfold Paging.pages at hpages
      rw [← List.flatMap_def]
      exact hpages
  exact ⟨by rw [hsame], iff_of_true (by rw [hsame]) trivial⟩

/-- A separator of sentences takes a full stop away wherever it is found. -/
theorem keeps_sentences (hsize : 0 < chunker.chunkSize) (text : Text) :
    Keeps (fun text => chunker.chunkSize < text.length → ¬codeUnits ". " <:+: text)
      (chunker.split [codeUnits ". ", codeUnits " "]) text := by
  have hne : codeUnits ". " ≠ [] := by decide
  have hwords := keeps_split_cons (codeUnits " ") (by decide) (by decide) (keeps_slices hsize)
  by_cases hshort : text.length ≤ chunker.chunkSize
  · have hsame : ink isSpaceUnit (chunker.split [codeUnits ". ", codeUnits " "] text).flatten =
        ink isSpaceUnit text := by
      rw [split_of_length_le hshort, List.flatten_singleton]
    exact ⟨hsame ▸ List.Sublist.refl _, iff_of_true hsame fun hlong => absurd hlong (not_lt.mpr hshort)⟩
  · have hparts : ink isSpaceUnit (chunker.split [codeUnits ". ", codeUnits " "] text).flatten =
        ink isSpaceUnit (splitOn (codeUnits ". ") text).flatten := by
      rw [split_cons hshort]
      exact (keeps_parts hwords _).2.mpr fun _ _ _ _ _ => trivial
    obtain ⟨hsublist, hless⟩ := @ink_splitOn_sublist _ isSpaceUnit _ _ hne text
    rw [← hparts] at hsublist hless
    refine ⟨hsublist, Iff.trans ?_ (imp_iff_right (not_le.mp hshort)).symm⟩
    constructor
    · intro heq hfound
      have hlt := hless (by decide) hfound
      rw [heq] at hlt
      exact lt_irrefl _ hlt
    · intro hnone
      rw [hparts, splitOn_of_not_infix hnone, List.flatten_singleton]

/-- No line that is longer than a chunk has a full stop before a space. -/
def KeepsStops (chunkSize : ℕ) (text : Text) : Prop :=
  ∀ paragraph ∈ splitOn (codeUnits "\n\n") text, ∀ line ∈ splitOn (codeUnits "\n") paragraph,
    chunkSize < line.length → ¬codeUnits ". " <:+: line

theorem keeps_split (hsize : 0 < chunker.chunkSize) (text : Text) :
    Keeps (KeepsStops chunker.chunkSize) (chunker.split separators) text := by
  have hlines := keeps_split_cons (codeUnits "\n") (by decide) (by decide) (keeps_sentences hsize)
  obtain ⟨hsublist, hiff⟩ := keeps_split_cons (codeUnits "\n\n") (by decide) (by decide) hlines text
  refine ⟨hsublist, hiff.trans ?_⟩
  constructor
  · intro h paragraph hparagraph line hline hlong
    have hle := length_le_of_mem_splitOn (by decide) hline
    have hle' := length_le_of_mem_splitOn (by decide) hparagraph
    exact h (by omega) paragraph hparagraph (by omega) line hline hlong
  · intro h _ paragraph hparagraph _ line hline hlong
    exact h paragraph hparagraph line hline hlong

/-! ## What merging keeps -/

/-- A chunk: what it repeats of the one before, and what is new. -/
structure Part where
  repeated : Text := []
  fresh : Text

def Part.text (part : Part) : Text := part.repeated ++ part.fresh

/-- What is repeated is tidy, and no longer than the overlap. -/
def Part.Within (overlap : ℕ) (part : Part) : Prop :=
  collapse part.repeated = part.repeated ∧ part.repeated.length ≤ overlap

/-- Whether the chunk has more than white space. -/
def Part.inky (part : Part) : Bool := ink isSpaceUnit part.text ≠ []

theorem Part.within_fresh (overlap : ℕ) (text : Text) : Part.Within overlap { fresh := text } :=
  ⟨rfl, Nat.zero_le _⟩

/-- The parts of the chunks, and of the one that is filled; the first chunk that will be left repeats nothing. -/
structure Merged (chunker : RecursiveCharacterChunker) (done : Text) (state : Merging) (earlier : List Part)
    (last : Part) : Prop where
  chunks : state.chunks = earlier.map Part.text
  current : state.current = last.text
  within : ∀ part ∈ earlier ++ [last], part.Within chunker.overlap
  short : ∀ part ∈ earlier ++ [last], part.text.length ≤ chunker.chunkSize
  done : ((earlier ++ [last]).flatMap fun part => ink isSpaceUnit part.fresh) = done
  first : ∀ part ∈ earlier.find? Part.inky, part.repeated = []
  fresh : earlier.find? Part.inky = none → last.repeated = []

theorem collapse_isPrefix (text more : Text) : collapse text <+: collapse (text ++ more) := tidy_isPrefix text more

theorem collapse_eq_nil {text : Text} : collapse text = [] ↔ ink isSpaceUnit text = [] := tidy_eq_nil (by decide)

/-- A text that begins with what is repeated, cut behind it. -/
theorem exists_fresh {repeated text : Text} (h : repeated <+: text) :
    ∃ part : Part, part.repeated = repeated ∧ part.text = text ∧
      ink isSpaceUnit text = ink isSpaceUnit repeated ++ ink isSpaceUnit part.fresh := by
  obtain ⟨fresh, rfl⟩ := h
  exact ⟨{ repeated, fresh }, rfl, rfl, ink_append _ _⟩

section Merging

variable {done : Text} {state : Merging} {earlier : List Part} {last : Part}

/-- A piece that fits is added to the chunk that is filled. -/
theorem Merged.fill (h : Merged chunker done state earlier last) {piece : Text} {part : Part}
    (hrepeated : part.repeated = last.repeated) (hshort : part.text.length ≤ chunker.chunkSize)
    (hink : ink isSpaceUnit part.fresh = ink isSpaceUnit last.fresh ++ ink isSpaceUnit piece) :
    Merged chunker (done ++ ink isSpaceUnit piece) { state with current := part.text } earlier part where
  chunks := h.chunks
  current := rfl
  within := by
    intro other hother
    rcases List.mem_append.mp hother with hother | hother
    · exact h.within other (List.mem_append_left _ hother)
    · obtain rfl := List.mem_singleton.mp hother
      have hlast := h.within last (List.mem_append_right _ (List.mem_singleton_self _))
      unfold Part.Within at hlast ⊢
      rw [hrepeated]
      exact hlast
  short := by
    intro other hother
    rcases List.mem_append.mp hother with hother | hother
    · exact h.short other (List.mem_append_left _ hother)
    · rw [List.mem_singleton.mp hother]
      exact hshort
  done := by
    rw [← h.done, List.flatMap_append, List.flatMap_append, List.flatMap_singleton, List.flatMap_singleton, hink,
      List.append_assoc]
  first := h.first
  fresh := fun hnone => hrepeated.trans (h.fresh hnone)

/-- The chunk is full, and another one is begun. -/
theorem Merged.push (h : Merged chunker done state earlier last) {piece : Text} {part : Part}
    (hwithin : part.Within chunker.overlap) (hshort : part.text.length ≤ chunker.chunkSize)
    (hink : ink isSpaceUnit part.fresh = ink isSpaceUnit piece)
    (hfresh : ink isSpaceUnit last.text = [] → part.repeated = []) :
    Merged chunker (done ++ ink isSpaceUnit piece)
      { chunks := state.chunks ++ [state.current], current := part.text } (earlier ++ [last]) part where
  chunks := by rw [h.chunks, h.current, List.map_append, List.map_singleton]
  current := rfl
  within := by
    intro other hother
    rcases List.mem_append.mp hother with hother | hother
    · exact h.within other hother
    · rw [List.mem_singleton.mp hother]
      exact hwithin
  short := by
    intro other hother
    rcases List.mem_append.mp hother with hother | hother
    · exact h.short other hother
    · rw [List.mem_singleton.mp hother]
      exact hshort
  done := by rw [List.flatMap_append, h.done, List.flatMap_singleton, hink]
  first := by
    intro other hother
    rw [List.find?_append] at hother
    cases hfound : earlier.find? Part.inky with
    | some found =>
        rw [hfound] at hother
        exact h.first other (hfound.trans hother)
    | none =>
        rw [hfound, Option.none_or] at hother
        obtain rfl := List.mem_singleton.mp (List.mem_of_find?_eq_some hother)
        exact h.fresh hfound
  fresh := by
    intro hnone
    rw [List.find?_append, Option.or_eq_none_iff, List.find?_singleton] at hnone
    refine hfresh ?_
    by_contra hinky
    have hlast : last.inky = true := decide_eq_true hinky
    rw [hlast] at hnone
    cases hnone.2

/-- One turn of the loop. -/
theorem Merged.mergePiece (h : Merged chunker done state earlier last) {piece : Text}
    (hpiece : piece.length ≤ chunker.chunkSize) :
    ∃ earlier' last', Merged chunker (done ++ ink isSpaceUnit piece) (chunker.mergePiece state piece)
      earlier' last' := by
  have hspace (text : Text) : ink isSpaceUnit (text ++ 0x20 :: piece) = ink isSpaceUnit text ++
      ink isSpaceUnit piece := by
    rw [ink_append, ink_cons_of_blank (by decide)]
  unfold RecursiveCharacterChunker.mergePiece
  dsimp only
  by_cases hcurrent : state.current = []
  · rw [if_neg (not_not.mpr hcurrent), if_pos hpiece]
    obtain ⟨hrepeated, hold⟩ := List.append_eq_nil_iff.mp (h.current.symm.trans hcurrent)
    refine ⟨earlier, { fresh := piece }, @Merged.fill _ _ _ _ _ h piece { fresh := piece } hrepeated.symm hpiece ?_⟩
    rw [hold]
    rfl
  · rw [if_pos hcurrent]
    by_cases hfits : (collapse (state.current ++ 0x20 :: piece)).length ≤ chunker.chunkSize
    · rw [if_pos hfits]
      have hlast := (h.within last (List.mem_append_right _ (List.mem_singleton_self _))).1
      have hprefix : last.repeated <+: collapse (state.current ++ 0x20 :: piece) := by
        rw [h.current, Part.text, List.append_assoc]
        conv_lhs => rw [← hlast]
        exact collapse_isPrefix _ _
      obtain ⟨part, hrepeated, htext, hink⟩ := exists_fresh hprefix
      rw [ink_collapse, hspace, h.current, Part.text, ink_append, List.append_assoc] at hink
      refine ⟨earlier, part, ?_⟩
      rw [← htext] at hfits ⊢
      exact h.fill hrepeated hfits (List.append_cancel_left hink).symm
    · rw [if_neg hfits, if_pos hcurrent]
      have hnext : ∃ earlier' last', Merged chunker (done ++ ink isSpaceUnit piece)
          { chunks := state.chunks ++ [state.current], current := piece } earlier' last' :=
        ⟨_, _, h.push (Part.within_fresh _ piece) hpiece rfl fun _ => rfl⟩
      unfold withOverlap
      dsimp only
      split
      · exact hnext
      · split
        · rename_i hjoined
          obtain ⟨part, hrepeated, htext, hink⟩ := exists_fresh
            (collapse_isPrefix (state.current.drop (state.current.length - chunker.overlap)) (0x20 :: piece))
          rw [ink_collapse, hspace, ink_collapse] at hink
          refine ⟨earlier ++ [last], part, ?_⟩
          rw [← htext] at hjoined ⊢
          refine h.push ⟨?_, ?_⟩ hjoined (List.append_cancel_left hink).symm fun hblank => ?_
          · rw [hrepeated]
            exact tidy_tidy (by decide) _
          · rw [hrepeated]
            refine (length_tidy_le _).trans ?_
            rw [List.length_drop]
            omega
          · rw [hrepeated, collapse_eq_nil, ink_eq_nil]
            rw [ink_eq_nil, ← h.current] at hblank
            exact fun unit hunit => hblank unit (List.mem_of_mem_drop hunit)
        · exact hnext

theorem Merged.foldl (h : Merged chunker done state earlier last) {pieces : List Text}
    (hpieces : ∀ piece ∈ pieces, piece.length ≤ chunker.chunkSize) :
    ∃ earlier' last', Merged chunker (done ++ ink isSpaceUnit pieces.flatten)
      (pieces.foldl chunker.mergePiece state) earlier' last' := by
  induction pieces generalizing done state earlier last with
  | nil =>
      refine ⟨earlier, last, ?_⟩
      rw [List.flatten_nil, ink_nil, List.append_nil]
      exact h
  | cons piece pieces ih =>
      rw [List.forall_mem_cons] at hpieces
      obtain ⟨earlier', last', hnext⟩ := h.mergePiece hpieces.1
      rw [List.foldl_cons, List.flatten_cons, ink_append, ← List.append_assoc]
      exact ih hnext hpieces.2

end Merging

/-- A part of the trimmed chunk. -/
def Part.trimmed (part : Part) : Part where
  repeated := part.repeated
  fresh := (trimText part.text).drop part.repeated.length

theorem Part.Within.trimmed {overlap : ℕ} {part : Part} (h : part.Within overlap) :
    part.trimmed.text = trimText part.text ∧
      ink isSpaceUnit part.trimmed.fresh = ink isSpaceUnit part.fresh := by
  have hprefix : part.repeated <+: trimText part.text := by
    have hstrip : strip isSpaceUnit part.repeated = part.repeated := by
      rw [← h.1]
      exact strip_tidy _
    conv_lhs => rw [← hstrip]
    exact strip_isPrefix part.repeated part.fresh
  obtain ⟨fresh, hfresh⟩ := hprefix
  have hdrop : part.trimmed.fresh = fresh := by
    unfold Part.trimmed
    rw [← hfresh, List.drop_left]
  have htext : part.trimmed.text = trimText part.text := by
    rw [← hfresh]
    unfold Part.text
    rw [hdrop]
    rfl
  refine ⟨htext, ?_⟩
  have hink := ink_trimText part.text
  rw [← htext] at hink
  unfold Part.text at hink
  rw [ink_append, ink_append] at hink
  exact List.append_cancel_left hink

/-- The chunks that are left, in parts. -/
theorem exists_parts (pieces : List Text) (hpieces : ∀ piece ∈ pieces, piece.length ≤ chunker.chunkSize) :
    ∃ parts : List Part, chunker.merge pieces = parts.map Part.text ∧
      (∀ part ∈ parts, part.text ≠ [] ∧ part.text.length ≤ chunker.chunkSize) ∧
      (∀ part ∈ parts, part.Within chunker.overlap) ∧ (∀ part ∈ parts.head?, part.repeated = []) ∧
      (parts.flatMap fun part => ink isSpaceUnit part.fresh) = ink isSpaceUnit pieces.flatten := by
  have hstart : Merged chunker [] {} [] { fresh := [] } :=
    ⟨rfl, rfl, fun part hpart => List.mem_singleton.mp hpart ▸ Part.within_fresh _ [],
      fun part hpart => List.mem_singleton.mp hpart ▸ Nat.zero_le _, rfl, nofun, fun _ => rfl⟩
  obtain ⟨earlier, last, h⟩ := hstart.foldl hpieces
  rw [List.nil_append] at h
  have hhead : ∀ part ∈ (earlier ++ [last]).find? Part.inky, part.repeated = [] := by
    intro part hpart
    rw [List.find?_append] at hpart
    cases hfound : earlier.find? Part.inky with
    | some found =>
        rw [hfound] at hpart
        exact h.first part (hfound.trans hpart)
    | none =>
        rw [hfound, Option.none_or] at hpart
        obtain rfl := List.mem_singleton.mp (List.mem_of_find?_eq_some hpart)
        exact h.fresh hfound
  have hmerge : chunker.merge pieces =
      (((earlier ++ [last]).map Part.text).map trimText).filter (· ≠ []) := by
    unfold merge
    dsimp only
    rw [List.map_append, List.map_singleton, ← h.chunks, ← h.current]
    split
    · rfl
    · rename_i hempty
      rw [not_not.mp hempty, List.map_append, List.filter_append]
      exact (List.append_nil _).symm
  have hwithin := h.within
  have hshort := h.short
  have hdone := h.done
  generalize earlier ++ [last] = all at hhead hmerge hwithin hshort hdone
  have htrimmed : (all.map Part.text).map trimText = (all.map Part.trimmed).map Part.text := by
    rw [List.map_map, List.map_map]
    exact List.map_congr_left fun part hpart => (hwithin part hpart).trimmed.1.symm
  have hmem {part : Part} (hpart : part ∈ (all.map Part.trimmed).filter fun part => part.text ≠ []) :
      ∃ old ∈ all, old.trimmed = part ∧ part.text ≠ [] := by
    obtain ⟨hpart, htext⟩ := List.mem_filter.mp hpart
    obtain ⟨old, hold, rfl⟩ := List.mem_map.mp hpart
    exact ⟨old, hold, rfl, of_decide_eq_true htext⟩
  refine ⟨(all.map Part.trimmed).filter fun part => part.text ≠ [], ?_, ?_, ?_, ?_, ?_⟩
  · rw [hmerge, htrimmed, List.filter_map]
    rfl
  · intro part hpart
    obtain ⟨old, hold, rfl, htext⟩ := hmem hpart
    refine ⟨htext, ?_⟩
    rw [(hwithin old hold).trimmed.1]
    exact (length_strip_le _).trans (hshort old hold)
  · intro part hpart
    obtain ⟨old, hold, rfl, -⟩ := hmem hpart
    exact hwithin old hold
  · intro part hpart
    rw [List.head?_filter, List.find?_map] at hpart
    obtain ⟨old, hold, rfl⟩ := Option.map_eq_some_iff.mp hpart
    have hsame : ∀ other ∈ all, ((fun part : Part => decide (part.text ≠ [])) ∘ Part.trimmed) other = other.inky := by
      intro other hother
      dsimp only [Function.comp_apply]
      rw [(hwithin other hother).trimmed.1]
      exact decide_eq_decide.mpr (not_congr strip_eq_nil)
    rw [List.find?_eq_some_iff_append] at hold
    obtain ⟨hinky, before, after, hsplit, hbefore⟩ := hold
    refine hhead old (List.find?_eq_some_iff_append.mpr ⟨?_, before, after, hsplit, fun other hother => ?_⟩)
    · rw [← hsame old (hsplit ▸ List.mem_append_right _ List.mem_cons_self)]
      exact hinky
    · rw [← hsame other (hsplit ▸ List.mem_append_left _ hother)]
      exact hbefore other hother
  · have hempty : ∀ part : Part, ¬part.text ≠ [] → ink isSpaceUnit part.fresh = [] := by
      intro part htext
      rw [(List.append_eq_nil_iff.mp (not_not.mp htext)).2, ink_nil]
    have hfilter (l : List Part) :
        ((l.filter fun part => part.text ≠ []).flatMap fun part => ink isSpaceUnit part.fresh) =
        l.flatMap fun part => ink isSpaceUnit part.fresh := by
      induction l with
      | nil => rfl
      | cons part l ih =>
          by_cases htext : part.text ≠ []
          · rw [List.filter_cons_of_pos (by simpa using htext), List.flatMap_cons, List.flatMap_cons, ih]
          · rw [List.filter_cons_of_neg (by simpa using htext), List.flatMap_cons, hempty part htext, List.nil_append,
              ih]
    rw [← hdone, hfilter, List.flatMap_map]
    exact List.flatMap_congr fun part hpart => (hwithin part hpart).trimmed.2

end RecursiveCharacterChunker

open RecursiveCharacterChunker

/-! ## Chunking -/

/-- With what each chunk but the first repeats left out, which is within the overlap but for spaces around it, the
chunks have the letters of the text. -/
def Covers (overlap : ℕ) (text : Text) (chunks : List Text) : Prop :=
  ∃ parts : List Part, chunks = parts.map Part.text ∧ (∀ part ∈ parts, (trimText part.repeated).length ≤ overlap) ∧
    (∀ part ∈ parts.head?, part.repeated = []) ∧
      (parts.flatMap fun part => ink isSpaceUnit part.fresh) = ink isSpaceUnit text

/-- The chunks are numbered, none is empty or too long, and they cover the text. -/
structure WellChunked (options : ChunkerOptions) (text : Text) (chunks : List TextChunk) : Prop where
  length : ∀ chunk ∈ chunks, 1 ≤ chunk.content.length ∧ chunk.content.length ≤ options.chunkSize
  numbered : chunks.map TextChunk.chunkIndex = List.range chunks.length
  covers : Covers options.overlap text (chunks.map TextChunk.content)

/-- Without an overlap the chunks have their own letters only. -/
theorem ink_of_covers {text : Text} {chunks : List Text} (h : Covers 0 text chunks) :
    ink isSpaceUnit chunks.flatten = ink isSpaceUnit text := by
  obtain ⟨parts, rfl, hrepeated, -, hink⟩ := h
  rw [← hink]
  clear hink
  induction parts with
  | nil => rfl
  | cons part parts ih =>
      rw [List.forall_mem_cons] at hrepeated
      have hnone : ink isSpaceUnit part.repeated = [] := by
        rw [← ink_trimText, List.length_eq_zero_iff.mp (Nat.le_zero.mp hrepeated.1), ink_nil]
      rw [List.map_cons, List.flatten_cons, List.flatMap_cons, ink_append, ih hrepeated.2, Part.text, ink_append, hnone,
        List.nil_append]

/-- What `chunk` answers, of a text that is not blank. -/
theorem chunk_eq_some {chunker : RecursiveCharacterChunker} {text : Text} {chunks : List TextChunk}
    (h : chunker.chunk text = some chunks) :
    chunks.map TextChunk.chunkIndex = List.range chunks.length ∧
      (trimText (unixLines text) = [] ∧ chunks = [] ∨
        chunks.map TextChunk.content = chunker.merge (chunker.split separators (trimText (unixLines text)))) := by
  unfold chunk at h
  dsimp only at h
  split at h
  · rename_i hblank
    obtain rfl := Option.some.inj h
    exact ⟨rfl, .inl ⟨hblank, rfl⟩⟩
  · split at h
    · cases h
    · obtain rfl := Option.some.inj h
      refine ⟨?_, .inr ?_⟩
      · rw [List.mapIdx_eq_zipIdx_map, List.map_map, List.length_map, List.length_zipIdx, List.range_eq_range']
        exact List.zipIdx_map_snd 0 _
      · rw [List.mapIdx_eq_zipIdx_map, List.map_map]
        exact List.zipIdx_map_fst 0 _

/-- Chunks without a full stop lost cover the text, and without an overlap no others do. -/
theorem chunk_covers {options : ChunkerOptions} (hsize : 0 < options.chunkSize) {text : Text} {chunks : List TextChunk}
    (h : (createChunker options).chunk text = some chunks) :
    (∀ chunk ∈ chunks, 1 ≤ chunk.content.length ∧ chunk.content.length ≤ options.chunkSize) ∧
      (KeepsStops options.chunkSize (trimText (unixLines text)) →
        Covers options.overlap text (chunks.map TextChunk.content)) ∧
      (options.overlap = 0 → Covers options.overlap text (chunks.map TextChunk.content) →
        KeepsStops options.chunkSize (trimText (unixLines text))) := by
  have hsize' : 0 < (createChunker options).chunkSize := hsize
  have hletters : ink isSpaceUnit (trimText (unixLines text)) = ink isSpaceUnit text := by
    rw [ink_trimText, ink_unixLines]
  obtain ⟨-, ⟨hblank, rfl⟩ | hchunks⟩ := chunk_eq_some h
  · have hstops : KeepsStops options.chunkSize [] := by
      intro paragraph hparagraph line hline hlong
      rw [List.mem_singleton.mp hparagraph] at hline
      rw [List.mem_singleton.mp hline] at hlong
      exact absurd hlong (Nat.not_lt_zero _)
    rw [hblank] at hletters ⊢
    refine ⟨nofun, fun _ => ⟨[], rfl, nofun, nofun, hletters⟩, fun _ _ => hstops⟩
  · obtain ⟨parts, hparts, hshort, hwithin, hhead, hink⟩ :=
      exists_parts ((createChunker options).split separators (trimText (unixLines text))) (length_split_le _ _)
    have hsplit := keeps_split hsize' (trimText (unixLines text))
    rw [hparts] at hchunks
    have hoverlap : (createChunker options).overlap ≤ options.overlap := Nat.min_le_left _ _
    refine ⟨fun chunk hchunk => ?_, fun hstops => ?_, fun hzero hcovers => ?_⟩
    · have hmem := List.mem_map_of_mem (f := TextChunk.content) hchunk
      rw [hchunks] at hmem
      obtain ⟨part, hpart, htext⟩ := List.mem_map.mp hmem
      rw [← htext]
      exact ⟨List.length_pos_iff.mpr (hshort part hpart).1, (hshort part hpart).2⟩
    · refine ⟨parts, hchunks, fun part hpart => ?_, hhead, ?_⟩
      · exact (length_strip_le _).trans ((hwithin part hpart).2.trans hoverlap)
      · rw [hink, hsplit.eq_iff.mpr hstops, hletters]
    · rw [hzero] at hcovers hoverlap
      refine hsplit.eq_iff.mp ?_
      -- Without an overlap the same chunks cover the pieces, so these have the letters of the text.
      have hpieces : Covers 0 ((createChunker options).split separators (trimText (unixLines text))).flatten
          (chunks.map TextChunk.content) :=
        ⟨parts, hchunks, fun part hpart => (length_strip_le _).trans ((hwithin part hpart).2.trans hoverlap),
          hhead, hink⟩
      rw [hletters, ← ink_of_covers hcovers, ink_of_covers hpieces]

/-- Whenever `chunk` returns, the chunks are as long as they should be, numbered, and cover the text if no line
that is longer than a chunk has a full stop before a space; without an overlap they cover no other text. -/
theorem well_chunked_iff {options : ChunkerOptions} (hsize : 0 < options.chunkSize) {text : Text}
    {chunks : List TextChunk} (h : (createChunker options).chunk text = some chunks) :
    (KeepsStops options.chunkSize (trimText (unixLines text)) → WellChunked options text chunks) ∧
      (options.overlap = 0 →
        (WellChunked options text chunks ↔ KeepsStops options.chunkSize (trimText (unixLines text)))) := by
  obtain ⟨hlength, hcovers, hexact⟩ := chunk_covers hsize h
  have hnumbered := (chunk_eq_some h).1
  have hwell := fun hstops => (⟨hlength, hnumbered, hcovers hstops⟩ : WellChunked options text chunks)
  exact ⟨hwell, fun hzero => ⟨fun hchunked => hexact hzero hchunked.covers, hwell⟩⟩

/-- Three words in chunks of eight characters, three of which may be repeated. -/
theorem well_chunked_words : WellChunked { chunkSize := 8, overlap := 3 } (codeUnits "one two  six")
    [{ chunkIndex := 0, content := codeUnits "one two" }, { chunkIndex := 1, content := codeUnits "two six" }] :=
  (well_chunked_iff (by decide) (by decide)).1 (by
    unfold KeepsStops
    decide)

/-- Two sentences in a line of six characters, in chunks of five: the full stop between them is lost. -/
theorem full_stop_lost :
    ¬∀ (options : ChunkerOptions) (text : Text) (chunks : List TextChunk), 0 < options.chunkSize →
      (createChunker options).chunk text = some chunks → WellChunked options text chunks := by
  intro h
  have hchunk : (createChunker { chunkSize := 5, overlap := 0 }).chunk (codeUnits "ab. cd") =
      some [{ chunkIndex := 0, content := codeUnits "ab cd" }] := by decide
  have hstops := (chunk_covers (by decide) hchunk).2.2 rfl (h _ _ _ (by decide) hchunk).covers
  revert hstops
  unfold KeepsStops
  decide

end DealFlow360.Rag
