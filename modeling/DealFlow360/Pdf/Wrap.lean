import DealFlow360.Lib.Filling
import DealFlow360.Types
import DealFlow360.WellFormed

/-!
# Wrapped text

`pdf.renderer.ts`: a text is reduced to what the standard fonts have and broken
into lines, at white space and inside a word that is too wide. A font is any
width of texts that does not decrease when text is appended.

`sanitizePdfText` and `wrap` are functions on texts of UTF-16 units; the pieces
of a word that is too wide are cut at characters, never inside one. The lines
are those of `Lib.Filling` (`wrap_eq`), whose two facts become `ink_wrap` and
`wrap_fits_iff`. Of a font only its widths are used, and of those only that
appending does not make a text narrower.
-/

namespace DealFlow360.Pdf

open Events (Text isSpaceUnit trimText isHighSurrogate isLowSurrogate)

/-! ## What the fonts have -/

/-- The characters of a text. -/
def codePoints : Text → List Text
  | [] => []
  | [unit] => [[unit]]
  | unit :: next :: rest =>
      if isHighSurrogate unit && isLowSurrogate next then [unit, next] :: codePoints rest
      else [unit] :: codePoints (next :: rest)

/-- `WINANSI_REPLACEMENTS`. -/
def winAnsiReplacements : List (Text × Text) :=
  [([0x00A0], codeUnits " "), ([0x2018], codeUnits "'"), ([0x2019], codeUnits "'"), ([0x201A], codeUnits "'"),
    ([0x201C], codeUnits "\""), ([0x201D], codeUnits "\""), ([0x201E], codeUnits "\""), ([0x2013], codeUnits "-"),
    ([0x2014], codeUnits "-"), ([0x2212], codeUnits "-"), ([0x2026], codeUnits "...")]

def sanitizedChar (char : Text) : Text :=
  match winAnsiReplacements.lookup char with
  | some mapped => mapped
  | none =>
      let code := char.headD 0
      if code = 9 ∨ code = 10 ∨ code = 13 then codeUnits " "
      else if (32 ≤ code ∧ code ≤ 126) ∨ (160 ≤ code ∧ code ≤ 255) ∨ code = 0x20AC then char
      else codeUnits "?"

/-- `[ \t\f\v]`. -/
def isBlank (unit : ℕ) : Bool := unit = 0x20 || unit = 0x09 || unit = 0x0C || unit = 0x0B

def sanitizePdfText (value : Text) : Text :=
  let output := (codePoints value).flatMap sanitizedChar
  trimText (Spacing.squeeze isBlank 0x20 false output)

/-! ## Lines -/

/-- A font, by the widths of texts. -/
structure Font where
  widthOfTextAtSize : Text → ℕ → ℚ
  monotone : ∀ text more size, widthOfTextAtSize text size ≤ widthOfTextAtSize (text ++ more) size

section Wrap

variable (font : Font) (size : ℕ) (maxWidth : ℚ)

def fits (text : Text) : Bool := font.widthOfTextAtSize text size ≤ maxWidth

def splitLongToken (token : Text) : List Text :=
  if font.widthOfTextAtSize token size ≤ maxWidth then [token]
  else
    let pieces := Filling.close ((codePoints token).foldl
      (Filling.place (fun current char => current ++ char) (fits font size maxWidth)) ([], []))
    if 0 < pieces.length then pieces else [token]

def wrap (text : Text) : List Text :=
  let normalized := sanitizePdfText text
  if normalized = [] then [[]]
  else
    let words := Spacing.words isSpaceUnit normalized
    let lines := Filling.close (words.foldl (fun state word => (splitLongToken font size maxWidth word).foldl
      (Filling.place (fun current piece => current ++ 0x20 :: piece) (fits font size maxWidth)) state) ([], []))
    if 0 < lines.length then lines else [[]]

end Wrap

/-! ## What the lines are -/

open Spacing (ink ink_append)

section Lines

variable {font : Font} {size : ℕ} {maxWidth : ℚ}

theorem flatten_codePoints (text : Text) : (codePoints text).flatten = text := by
  fun_induction codePoints text with
  | case1 => rfl
  | case2 unit => rfl
  | case3 unit next rest hpair ih => exact congrArg (unit :: next :: ·) ih
  | case4 unit next rest hpair ih => exact congrArg (unit :: ·) ih

theorem ink_splitLongToken (token : Text) :
    ink isSpaceUnit (splitLongToken font size maxWidth token).flatten = ink isSpaceUnit token := by
  unfold splitLongToken
  dsimp only
  split_ifs
  · rw [List.flatten_singleton]
  · rw [Filling.ink_filled fun line piece => ink_append line piece, flatten_codePoints]
    rfl
  · rw [List.flatten_singleton]

/-- A piece that does not fit is one character. -/
theorem fits_of_mem_splitLongToken {token piece : Text} (hne : token ≠ [])
    (h : piece ∈ splitLongToken font size maxWidth token) : fits font size maxWidth piece = true ∨
      piece ∈ codePoints token := by
  unfold splitLongToken at h
  dsimp only at h
  split_ifs at h with hfits hpieces
  · exact Or.inl (List.mem_singleton.mp h ▸ decide_eq_true hfits)
  · exact Filling.fits_of_mem_filled h
  · have hwhole := @Filling.ink_filled _ (fun current char : Text => current ++ char) (fits font size maxWidth)
      (fun _ => false) (fun line piece => ink_append line piece) (codePoints token) ([], [])
    rw [List.length_eq_zero_iff.mp (Nat.eq_zero_of_not_pos hpieces), flatten_codePoints] at hwhole
    have htoken : ink (fun _ => false) token = token := List.filter_eq_self.mpr fun _ _ => rfl
    exact absurd (htoken.symm.trans hwhole.symm) hne

theorem mem_codePoints {text char : Text} (h : char ∈ codePoints text) :
    (∃ unit, char = [unit]) ∨ ∃ unit next, char = [unit, next] ∧ isHighSurrogate unit = true := by
  fun_induction codePoints text with
  | case1 => cases h
  | case2 unit => exact Or.inl ⟨unit, List.mem_singleton.mp h⟩
  | case3 unit next rest hpair ih =>
      rcases List.mem_cons.mp h with rfl | h
      · exact Or.inr ⟨unit, next, rfl, (Bool.and_eq_true_iff.mp hpair).1⟩
      · exact ih h
  | case4 unit next rest hpair ih =>
      rcases List.mem_cons.mp h with rfl | h
      · exact Or.inl ⟨unit, rfl⟩
      · exact ih h

theorem sanitizedChar_lt {text char : Text} (h : char ∈ codePoints text) :
    ∀ unit ∈ sanitizedChar char, unit < 0xD800 := by
  intro unit hunit
  unfold sanitizedChar at hunit
  have hmapped : ∀ entry ∈ winAnsiReplacements, ∀ unit ∈ entry.2, unit < 0xD800 := by decide
  have hspace : ∀ unit ∈ codeUnits " ", unit < 0xD800 := by decide
  have hquestion : ∀ unit ∈ codeUnits "?", unit < 0xD800 := by decide
  cases hlookup : winAnsiReplacements.lookup char with
  | some mapped =>
      rw [hlookup] at hunit
      obtain ⟨front, back, hentries, -⟩ := List.lookup_eq_some_iff.mp hlookup
      exact hmapped (char, mapped) (hentries ▸ List.mem_append_right _ List.mem_cons_self) unit hunit
  | none =>
      rw [hlookup] at hunit
      dsimp only at hunit
      split_ifs at hunit with hline hrange
      · exact hspace unit hunit
      · rcases mem_codePoints h with ⟨code, rfl⟩ | ⟨code, next, rfl, hhigh⟩
        · obtain rfl := List.mem_singleton.mp hunit
          rw [List.headD_cons] at hrange
          omega
        · unfold isHighSurrogate at hhigh
          simp only [Bool.and_eq_true, decide_eq_true_eq] at hhigh
          rw [List.headD_cons] at hrange
          omega
      · exact hquestion unit hunit

/-- The units that are left are characters. -/
theorem sanitizePdfText_lt (value : Text) : ∀ unit ∈ sanitizePdfText value, unit < 0xD800 := by
  intro unit hunit
  rcases Spacing.mem_squeeze (Spacing.strip_subset _ hunit) with rfl | hmem
  · decide
  · obtain ⟨char, hchar, hmem⟩ := List.mem_flatMap.mp hmem
    exact sanitizedChar_lt hchar unit hmem

theorem codePoints_of_lt {text : Text} (h : ∀ unit ∈ text, unit < 0xD800) :
    codePoints text = text.map fun unit => [unit] := by
  fun_induction codePoints text with
  | case1 => rfl
  | case2 unit => rfl
  | case3 unit next rest hpair ih =>
      have hlow := h unit List.mem_cons_self
      unfold isHighSurrogate at hpair
      simp only [Bool.and_eq_true, decide_eq_true_eq] at hpair
      omega
  | case4 unit next rest hpair ih =>
      rw [ih fun other hother => h other (List.mem_cons_of_mem _ hother)]
      rfl

theorem sanitized_ink {text : Text} (h : sanitizePdfText text ≠ []) : ink isSpaceUnit (sanitizePdfText text) ≠ [] := by
  intro hnone
  have hstrip : Spacing.strip isSpaceUnit (sanitizePdfText text) = sanitizePdfText text := Spacing.strip_strip _
  exact h (hstrip ▸ Spacing.strip_eq_nil.mpr hnone)

theorem ne_nil_of_mem_words {text word : Text} (h : word ∈ Spacing.words isSpaceUnit text) : word ≠ [] := by
  have hword := (List.mem_filter.mp h).2
  rintro rfl
  cases hword

/-- The pieces of the words of a text. -/
def piecesOf (font : Font) (size : ℕ) (maxWidth : ℚ) (normalized : Text) : List Text :=
  (Spacing.words isSpaceUnit normalized).flatMap (splitLongToken font size maxWidth)

theorem ink_piecesOf (normalized : Text) :
    ink isSpaceUnit (piecesOf font size maxWidth normalized).flatten = ink isSpaceUnit normalized := by
  have hwords (words : List Text) : ink isSpaceUnit (words.flatMap (splitLongToken font size maxWidth)).flatten =
      ink isSpaceUnit words.flatten := by
    induction words with
    | nil => rfl
    | cons word words ih =>
        rw [List.flatMap_cons, List.flatten_append, ink_append, ink_splitLongToken, ih, List.flatten_cons,
          ink_append word]
  unfold piecesOf
  rw [hwords, Spacing.flatten_words]
  exact List.filter_eq_self.mpr fun unit hunit => (List.mem_filter.mp hunit).2

/-- The lines of a text with characters. -/
theorem wrap_eq {text : Text} (h : sanitizePdfText text ≠ []) : wrap font size maxWidth text =
    Filling.close ((piecesOf font size maxWidth (sanitizePdfText text)).foldl
      (Filling.place (fun current piece => current ++ 0x20 :: piece) (fits font size maxWidth)) ([], [])) := by
  have hink := @Filling.ink_filled _ (fun current piece : Text => current ++ 0x20 :: piece) (fits font size maxWidth)
    isSpaceUnit (fun line piece => ink_append line (0x20 :: piece))
    (piecesOf font size maxWidth (sanitizePdfText text)) ([], [])
  rw [ink_piecesOf] at hink
  unfold wrap
  dsimp only
  rw [if_neg h, ← List.foldl_flatMap, if_pos]
  · rfl
  · refine List.length_pos_iff.mpr fun hnone => sanitized_ink h ?_
    unfold piecesOf at hink
    rw [hnone] at hink
    exact hink.symm

/-- The lines have the characters of the text that are not white space, in their order. -/
theorem ink_wrap (text : Text) :
    ink isSpaceUnit (wrap font size maxWidth text).flatten = ink isSpaceUnit (sanitizePdfText text) := by
  by_cases hnone : sanitizePdfText text = []
  · unfold wrap
    dsimp only
    rw [if_pos hnone, hnone]
    rfl
  · rw [wrap_eq hnone, Filling.ink_filled fun line piece => ink_append line (0x20 :: piece), ink_piecesOf]
    rfl

theorem fits_of_mem_wrap {text line : Text} (h : sanitizePdfText text ≠ [])
    (hline : line ∈ wrap font size maxWidth text) :
    font.widthOfTextAtSize line size ≤ maxWidth ∨ line.length = 1 := by
  rw [wrap_eq h] at hline
  rcases Filling.fits_of_mem_filled hline with hfits | hpiece
  · exact Or.inl (of_decide_eq_true hfits)
  · obtain ⟨word, hword, hpiece⟩ := List.mem_flatMap.mp hpiece
    rcases fits_of_mem_splitLongToken (ne_nil_of_mem_words hword) hpiece with hfits | hchar
    · exact Or.inl (of_decide_eq_true hfits)
    · right
      have hunits : ∀ unit ∈ word, unit < 0xD800 := by
        intro unit hunit
        have hink : unit ∈ ink isSpaceUnit (sanitizePdfText text) := by
          rw [← Spacing.flatten_words]
          exact List.mem_flatten.mpr ⟨word, hword, hunit⟩
        exact sanitizePdfText_lt text unit (List.mem_filter.mp hink).1
      rw [codePoints_of_lt hunits] at hchar
      obtain ⟨unit, -, rfl⟩ := List.mem_map.mp hchar
      rfl

/-- A line is no wider than the width where it is not one character; a text without characters has an empty line. -/
theorem wrap_fits_iff {text : Text} :
    (∀ line ∈ wrap font size maxWidth text, font.widthOfTextAtSize line size ≤ maxWidth ∨ line.length = 1) ↔
      sanitizePdfText text ≠ [] ∨ font.widthOfTextAtSize [] size ≤ maxWidth := by
  by_cases hnone : sanitizePdfText text = []
  · have hwrap : wrap font size maxWidth text = [[]] := by
      unfold wrap
      dsimp only
      rw [if_pos hnone]
    rw [hwrap]
    constructor
    · intro h
      rcases h [] List.mem_cons_self with hfits | hone
      · exact Or.inr hfits
      · cases hone
    · intro h line hline
      obtain rfl := List.mem_singleton.mp hline
      exact Or.inl (h.resolve_left (not_not.mpr hnone))
  · exact ⟨fun _ => Or.inl hnone, fun _ line hline => fits_of_mem_wrap hnone hline⟩

end Lines

end DealFlow360.Pdf
