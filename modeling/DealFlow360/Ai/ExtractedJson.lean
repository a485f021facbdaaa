import DealFlow360.Ai.JsonExtraction
import DealFlow360.JsonStringify
import DealFlow360.Lib.Program
import DealFlow360.Lib.Spacing

/-!
# Which JSON comes out of an answer

A code fence ends at the next three backticks, in a string or not, and what is
in the fence is then parsed in place of the JSON. The backticks of the strings
of a value are counted in its text, with its escapes undone: what comes out of
a piece has fewer of them than the value the model meant.

The proof goes through the text of the answer piece by piece. The escapes of a
string are undone and read back, backticks are counted in a text and in the
value it spells, and a piece of the answer that parses to a value cannot hold
more of them than the value the model meant.

- `extractJson_prose`: between prose, the value comes out where no two fences
  are in its text;
- `extractJson_fence`: in a fence, it comes out where its own text has none;
- `meant_json_recovered_iff` puts the two together, in both directions: where
  the condition fails, what comes out is refused or is another value.

The failing answer is a value whose string holds a fence of its own.
-/

namespace DealFlow360.Ai

open Events (Text isSpaceUnit trimText)
open JsonSyntax Markers
open Spacing (dropWhile_around rdropWhile_around)

/-! ## Escapes -/

/-- The text with its escapes undone, where they are escapes of JSON. -/
def unescape : Text → Option Text
  | [] => some []
  | 0x5C :: 0x75 :: a :: b :: c :: d :: rest =>
      match radixValue 16 [a, b, c, d] with
      | some unit => (unescape rest).map (unit :: ·)
      | none => none
  | 0x5C :: letter :: rest =>
      match simpleEscape letter with
      | some unit => (unescape rest).map (unit :: ·)
      | none => none
  | unit :: rest => if unit = 0x5C then none else (unescape rest).map (unit :: ·)

theorem unescape_unit {unit : ℕ} (h : unit ≠ 0x5C) (rest : Text) :
    unescape (unit :: rest) = (unescape rest).map (unit :: ·) := by
  rw [unescape.eq_def]
  split
  · rename_i heq
    cases heq
  · rename_i heq
    exact absurd (List.cons.inj heq).1 h
  · rename_i heq
    exact absurd (List.cons.inj heq).1 h
  · rename_i heq
    obtain ⟨rfl, rfl⟩ := List.cons.inj heq
    exact if_neg h

theorem unescape_plain {plain : Text} (h : ∀ unit ∈ plain, unit ≠ 0x5C) (rest : Text) :
    unescape (plain ++ rest) = (unescape rest).map (plain ++ ·) := by
  induction plain with
  | nil => exact Option.map_id'.symm
  | cons unit plain ih =>
      obtain ⟨hunit, hplain⟩ := List.forall_mem_cons.mp h
      rw [List.cons_append, unescape_unit hunit, ih hplain, Option.map_map]
      rfl

/-- A unit that is not part of an escape. -/
def Whole (unit : ℕ) : Prop :=
  unit ≠ 0x5C ∧ unit ≠ 0x75 ∧ simpleEscape unit = none ∧ ∀ digit ∈ digitValue unit, ¬digit < 16

instance (unit : ℕ) : Decidable (Whole unit) := inferInstanceAs (Decidable (_ ∧ _ ∧ _ ∧ _))

theorem radixValue_whole {digits : Text} {unit : ℕ} (hunit : Whole unit) (hmem : unit ∈ digits) :
    radixValue 16 digits = none := by
  unfold radixValue
  split_ifs with hempty
  · rfl
  · have hfold (value : ℕ) : digits.foldlM (fun value unit => do
        let digit ← digitValue unit
        if digit < 16 then some (16 * value + digit) else none) value = none := by
      induction digits generalizing value with
      | nil => cases hmem
      | cons first digits ih =>
          rw [List.foldlM_cons]
          cases hdigit : digitValue first with
          | none => rfl
          | some digit =>
              show (if digit < 16 then some (16 * value + digit) else none) >>= _ = none
              split_ifs with hlow
              · rcases List.mem_cons.mp hmem with rfl | hmem
                · exact absurd hlow (hunit.2.2.2 digit hdigit)
                · exact ih hmem (List.ne_nil_of_mem hmem) _
              · rfl
    exact hfold 0

theorem unescape_simple {letter : ℕ} (h : letter ≠ 0x75) (rest : Text) : unescape (0x5C :: letter :: rest) =
    (simpleEscape letter).bind fun unit => (unescape rest).map (unit :: ·) := by
  rw [unescape.eq_3 _ _ fun _ _ _ _ _ heq => absurd heq h]
  cases simpleEscape letter <;> rfl

theorem unescape_code (a b c d : ℕ) (rest : Text) : unescape (0x5C :: 0x75 :: a :: b :: c :: d :: rest) =
    (radixValue 16 [a, b, c, d]).bind fun unit => (unescape rest).map (unit :: ·) := by
  rw [unescape]
  cases radixValue 16 [a, b, c, d] <;> rfl

/-- Four digits come behind a backslash and a u. -/
theorem unescape_code_inv {tail undone : Text} (h : unescape (0x5C :: 0x75 :: tail) = some undone) :
    ∃ a b c d rest unit left, tail = a :: b :: c :: d :: rest ∧ radixValue 16 [a, b, c, d] = some unit ∧
      unescape rest = some left ∧ undone = unit :: left := by
  match tail, h with
  | a :: b :: c :: d :: rest, h =>
      rw [unescape_code] at h
      obtain ⟨unit, hunit, h⟩ := Option.bind_eq_some_iff.mp h
      obtain ⟨left, hleft, rfl⟩ := Option.map_eq_some_iff.mp h
      exact ⟨a, b, c, d, rest, unit, left, rfl, hunit, hleft, rfl⟩
  | [], h => cases h
  | [_], h => cases h
  | [_, _], h => cases h
  | [_, _, _], h => cases h

/-- A text is undone on both sides of a unit that is not part of an escape. -/
theorem unescape_append {unit : ℕ} (hunit : Whole unit) {rest undone : Text} : ∀ {front : Text},
    unescape (front ++ unit :: rest) = some undone → ∃ left right,
      unescape front = some left ∧ unescape (unit :: rest) = some right ∧ undone = left ++ right
  | [], h => ⟨[], undone, rfl, h, rfl⟩
  | first :: front, h => by
      by_cases hfirst : first = 0x5C
      · subst hfirst
        cases front with
        | nil =>
            rw [List.singleton_append, unescape_simple hunit.2.1, hunit.2.2.1] at h
            cases h
        | cons letter front =>
            rw [List.cons_append, List.cons_append] at h
            by_cases hletter : letter = 0x75
            · subst hletter
              obtain ⟨a, b, c, d, tail, code, more, htail, hcode, hmore, rfl⟩ := unescape_code_inv h
              have hlost (hmem : unit ∈ [a, b, c, d]) : False := by
                rw [radixValue_whole hunit hmem] at hcode
                cases hcode
              match front, htail with
              | [], htail => exact (hlost ((List.cons.inj htail).1 ▸ by simp)).elim
              | [_], htail => exact (hlost ((List.cons.inj (List.cons.inj htail).2).1 ▸ by simp)).elim
              | [_, _], htail =>
                  exact (hlost ((List.cons.inj (List.cons.inj (List.cons.inj htail).2).2).1 ▸ by simp)).elim
              | [_, _, _], htail =>
                  exact (hlost ((List.cons.inj (List.cons.inj (List.cons.inj (List.cons.inj htail).2).2).2).1 ▸
                    by simp)).elim
              | a' :: b' :: c' :: d' :: front, htail =>
                  simp only [List.cons_append, List.cons.injEq] at htail
                  obtain ⟨rfl, rfl, rfl, rfl, rfl⟩ := htail
                  obtain ⟨left, right, hleft, hright, rfl⟩ := unescape_append hunit hmore
                  refine ⟨code :: left, right, ?_, hright, rfl⟩
                  rw [unescape_code, hcode, hleft]
                  rfl
            · rw [unescape_simple hletter] at h
              obtain ⟨code, hcode, h⟩ := Option.bind_eq_some_iff.mp h
              obtain ⟨more, hmore, rfl⟩ := Option.map_eq_some_iff.mp h
              obtain ⟨left, right, hleft, hright, rfl⟩ := unescape_append hunit hmore
              refine ⟨code :: left, right, ?_, hright, rfl⟩
              rw [unescape_simple hletter, hcode, hleft]
              rfl
      · rw [List.cons_append, unescape_unit hfirst] at h
        obtain ⟨more, hmore, rfl⟩ := Option.map_eq_some_iff.mp h
        obtain ⟨left, right, hleft, hright, rfl⟩ := unescape_append hunit hmore
        refine ⟨first :: left, right, ?_, hright, rfl⟩
        rw [unescape_unit hfirst, hleft]
        rfl

/-! ## Backticks -/

/-- The backticks of the strings of a value. -/
def ticks (v : JsonTree) : ℕ := weight (List.count 0x60) v

theorem readString_unescape {rest s after undone : Text} (h : readString rest = some (s, after))
    (hafter : unescape after = some undone) : unescape rest = some (s ++ 0x22 :: undone) := by
  fun_induction readString rest generalizing s with
  | case1 => cases h
  | case2 rest =>
      cases h
      rw [unescape_unit (by decide), hafter]
      rfl
  | case3 rest a b c d unit hcode ih =>
      obtain ⟨read, hread, h⟩ := Option.map_eq_some_iff.mp h
      cases h
      rw [unescape_code, hcode, ih hread]
      rfl
  | case4 => cases h
  | case5 letter rest hletter unit hsimple ih =>
      obtain ⟨read, hread, h⟩ := Option.map_eq_some_iff.mp h
      cases h
      rw [unescape_simple (simpleEscape_ne hsimple), hsimple, Option.bind_some, ih hread]
      rfl
  | case6 => cases h
  | case7 => cases h
  | case8 unit rest _ _ hbackslash _ ih =>
      obtain ⟨read, hread, h⟩ := Option.map_eq_some_iff.mp h
      cases h
      have hunit : unit ≠ 0x5C := by
        rintro rfl
        cases rest with
        | nil => cases hread
        | cons letter rest => exact hbackslash letter rest rfl rfl
      rw [unescape_unit hunit, ih hread]
      rfl

/-- A unit of a number or a literal. -/
def isPlain (unit : ℕ) : Bool :=
  decide (unit ≠ 0x5C) && decide (unit ≠ 0x60) && !isOpenBracket unit && !isCloseBracket unit

theorem isPlain_of_number {unit : ℕ} (h : isNumberUnit unit = true) : isPlain unit = true := by
  unfold isNumberUnit isExponentMark at h
  simp only [Bool.or_eq_true, decide_eq_true_eq] at h
  rcases h with (((hdigit | rfl) | rfl) | rfl) | rfl | rfl
  · obtain ⟨hlow, hhigh⟩ := isDigit_iff.mp hdigit
    interval_cases unit <;> rfl
  all_goals rfl

/-- What the next token of a text is read from. -/
theorem nextToken_cases {unit : ℕ} {rest after : Text} {tok : JsonToken} (h : nextToken unit rest = some (tok, after)) :
    (unit = 0x22 ∧ ∃ s, tok = .string s ∧ readString rest = some (s, after)) ∨
      (∃ m, tok = .mark m ∧ markOf unit = some m ∧ after = rest) ∨
      ∃ a plain, tok = .atom a ∧ unit :: rest = plain ++ after ∧ ∀ other ∈ plain, isPlain other = true := by
  unfold nextToken at h
  by_cases hquote : unit = '"'.toNat
  · rw [if_pos hquote] at h
    obtain ⟨read, hread, h⟩ := Option.map_eq_some_iff.mp h
    cases h
    exact Or.inl ⟨hquote, read.1, rfl, hread⟩
  · right
    rw [if_neg hquote] at h
    cases hmark : markOf unit with
    | some m =>
        rw [hmark] at h
        cases h
        exact Or.inl ⟨m, rfl, rfl, rfl⟩
    | none =>
        right
        rw [hmark] at h
        dsimp only at h
        by_cases hfirst : isDigit unit = true ∨ unit = '-'.toNat
        · rw [if_pos hfirst] at h
          split_ifs at h
          cases h
          exact ⟨_, _, rfl, (List.takeWhile_append_dropWhile ..).symm, fun other hother =>
            isPlain_of_number (List.mem_takeWhile_imp hother)⟩
        · rw [if_neg hfirst] at h
          obtain ⟨⟨word, a⟩, hword, h⟩ := List.exists_of_findSome?_eq_some h
          dsimp only at h
          split_ifs at h with hprefix
          cases h
          obtain ⟨tail, htail⟩ := List.isPrefixOf_iff_prefix.mp hprefix
          have hplain : ∀ entry ∈ literals, ∀ other ∈ entry.1, isPlain other = true := by decide
          refine ⟨a, word, rfl, ?_, hplain _ hword⟩
          rw [← htail, List.drop_left]

theorem isPlain_iff {unit : ℕ} : isPlain unit = true ↔
    unit ≠ 0x5C ∧ unit ≠ 0x60 ∧ isOpenBracket unit = false ∧ isCloseBracket unit = false := by
  unfold isPlain
  rw [Bool.and_eq_true, Bool.and_eq_true, Bool.and_eq_true, decide_eq_true_iff, decide_eq_true_iff, Bool.not_eq_true',
    Bool.not_eq_true', and_assoc, and_assoc]

/-- What is in front of a token's text has the backticks of the token. -/
theorem nextToken_unescape {unit : ℕ} {rest after undone : Text} {tok : JsonToken}
    (h : nextToken unit rest = some (tok, after)) (hafter : unescape after = some undone) : ∃ more,
      unescape (unit :: rest) = some more ∧ more.count 0x60 = tok.weight (List.count 0x60) + undone.count 0x60 := by
  rcases nextToken_cases h with ⟨rfl, s, rfl, hread⟩ | ⟨m, rfl, hmark, rfl⟩ | ⟨a, plain, rfl, hplain, hunits⟩
  · refine ⟨0x22 :: (s ++ 0x22 :: undone), ?_, ?_⟩
    · rw [unescape_unit (by decide), readString_unescape hread hafter]
      rfl
    · rw [List.count_cons_of_ne (by decide), List.count_append, List.count_cons_of_ne (by decide)]
      rfl
  · have hunit : unit ≠ 0x5C ∧ unit ≠ 0x60 := by
      constructor
      all_goals
        rintro rfl
        cases hmark
    refine ⟨unit :: undone, ?_, ?_⟩
    · rw [unescape_unit hunit.1, hafter]
      rfl
    · rw [List.count_cons_of_ne hunit.2]
      exact (Nat.zero_add _).symm
  · refine ⟨plain ++ undone, ?_, ?_⟩
    · rw [hplain, unescape_plain (fun other hother => (isPlain_iff.mp (hunits other hother)).1), hafter]
      rfl
    · have hcount : plain.count 0x60 = 0 :=
        List.count_eq_zero.mpr fun hmem => (isPlain_iff.mp (hunits _ hmem)).2.1 rfl
      rw [List.count_append, hcount]
      rfl

/-- A text has the backticks of its tokens. -/
theorem lex_unescape {fuel : ℕ} {text : Text} {toks : List JsonToken} (h : lex fuel text = some toks) : ∃ undone,
    unescape text = some undone ∧ undone.count 0x60 = tokensWeight (List.count 0x60) toks := by
  induction fuel generalizing text toks with
  | zero => cases h
  | succ fuel ih =>
      have hspace : ∀ unit ∈ text.takeWhile isJsonSpace, unit ≠ 0x5C ∧ unit ≠ 0x60 := by
        intro unit hunit
        have hunit := List.mem_takeWhile_imp hunit
        constructor
        all_goals
          rintro rfl
          cases hunit
      have hcount : (text.takeWhile isJsonSpace).count 0x60 = 0 :=
        List.count_eq_zero.mpr fun hmem => (hspace _ hmem).2 rfl
      have hbehind {more : Text} (hmore : unescape (text.dropWhile isJsonSpace) = some more) :
          unescape text = some (text.takeWhile isJsonSpace ++ more) := by
        have hplain := unescape_plain (fun unit hunit => (hspace unit hunit).1) (text.dropWhile isJsonSpace)
        rwa [List.takeWhile_append_dropWhile, hmore] at hplain
      rw [lex] at h
      split at h
      · rename_i hnil
        cases h
        have hnone : unescape (text.dropWhile isJsonSpace) = some [] := by rw [hnil, unescape]
        refine ⟨_, hbehind hnone, ?_⟩
        rw [List.append_nil, hcount]
        rfl
      · rename_i unit rest hcons
        obtain ⟨⟨tok, after⟩, hnext, h⟩ := Option.bind_eq_some_iff.mp h
        obtain ⟨more, hlex, h⟩ := Option.bind_eq_some_iff.mp h
        cases h
        obtain ⟨undone, hundone, hweight⟩ := ih hlex
        obtain ⟨whole, hwhole, hticks⟩ := nextToken_unescape hnext hundone
        refine ⟨_, hbehind (hcons ▸ hwhole), ?_⟩
        rw [List.count_append, hcount, Nat.zero_add, hticks, hweight, tokensWeight_cons]

/-- What a text parses to has no more backticks than the text. -/
theorem ticks_le_of_parse {text : Text} {v : JsonTree} (h : jsonParse text = some v) : ∃ undone,
    unescape text = some undone ∧ ticks v ≤ undone.count 0x60 := by
  obtain ⟨w, htoks, rfl⟩ := jsonParse_eq_some.mp h
  obtain ⟨undone, hundone, hcount⟩ := lex_unescape htoks
  refine ⟨undone, hundone, ?_⟩
  rw [hcount, tokensWeight_tokens]
  exact weight_lastWins_le _ w

theorem ticks_of_spelling {v : JsonTree} {text : Text} (h : Spelling (tokens v) text) : ∃ undone,
    unescape text = some undone ∧ undone.count 0x60 = ticks v := by
  obtain ⟨undone, hundone, hcount⟩ := lex_unescape (lex_spelling h (isChain_tokens v) (Nat.lt_succ_self _))
  exact ⟨undone, hundone, hcount.trans (tokensWeight_tokens _ v)⟩

/-! ## Pieces of a text -/

/-- A piece can be undone where the text can, and has no more backticks then. -/
def Within (piece text : Text) : Prop :=
  ∀ undone, unescape text = some undone → ∃ less, unescape piece = some less ∧ less.count 0x60 ≤ undone.count 0x60

theorem Within.trans {piece middle text : Text} (h : Within piece middle) (h' : Within middle text) :
    Within piece text := by
  intro undone hundone
  obtain ⟨less, hless, hle⟩ := h' undone hundone
  obtain ⟨least, hleast, hle'⟩ := h less hless
  exact ⟨least, hleast, hle'.trans hle⟩

theorem within_behind_plain {plain : Text} (h : ∀ unit ∈ plain, unit ≠ 0x5C) (text : Text) :
    Within text (plain ++ text) := by
  intro undone hundone
  rw [unescape_plain h] at hundone
  obtain ⟨less, hless, rfl⟩ := Option.map_eq_some_iff.mp hundone
  exact ⟨less, hless, (List.sublist_append_right plain less).count_le _⟩

theorem within_behind {unit : ℕ} (h : Whole unit) (front rest : Text) :
    Within (unit :: rest) (front ++ unit :: rest) := by
  intro undone hundone
  obtain ⟨left, right, -, hright, rfl⟩ := unescape_append h hundone
  exact ⟨right, hright, (List.sublist_append_right left right).count_le _⟩

theorem within_before {back : Text} (h : ∀ unit ∈ back.head?, Whole unit) (text : Text) :
    Within text (text ++ back) := by
  cases back with
  | nil =>
      intro undone hundone
      rw [List.append_nil] at hundone
      exact ⟨undone, hundone, le_rfl⟩
  | cons unit back =>
      intro undone hundone
      obtain ⟨left, right, hleft, -, rfl⟩ := unescape_append (h unit rfl) hundone
      exact ⟨left, hleft, (List.sublist_append_left left right).count_le _⟩

theorem unescape_append_of {front rest left right : Text} (hfront : unescape front = some left)
    (hrest : unescape rest = some right) : unescape (front ++ rest) = some (left ++ right) := by
  fun_induction unescape front generalizing left with
  | case1 =>
      cases hfront
      exact hrest
  | case2 a b c d front unit hcode ih =>
      obtain ⟨more, hmore, rfl⟩ := Option.map_eq_some_iff.mp hfront
      show unescape (0x5C :: 0x75 :: a :: b :: c :: d :: (front ++ rest)) = _
      rw [unescape_code, hcode, Option.bind_some, ih hmore]
      rfl
  | case3 => cases hfront
  | case4 letter front _ unit hsimple ih =>
      obtain ⟨more, hmore, rfl⟩ := Option.map_eq_some_iff.mp hfront
      show unescape (0x5C :: letter :: (front ++ rest)) = _
      rw [unescape_simple (simpleEscape_ne hsimple), hsimple, Option.bind_some, ih hmore]
      rfl
  | case5 => cases hfront
  | case6 => cases hfront
  | case7 unit front _ _ hunit ih =>
      obtain ⟨more, hmore, rfl⟩ := Option.map_eq_some_iff.mp hfront
      rw [List.cons_append, unescape_unit hunit, ih hmore]
      rfl

/-- A piece that ends with a unit that is not part of an escape. -/
theorem within_upto {unit : ℕ} (h : Whole unit) (text back : Text) :
    Within (text ++ [unit]) (text ++ [unit] ++ back) := by
  intro undone hundone
  rw [List.append_assoc, List.singleton_append] at hundone
  obtain ⟨left, right, hleft, hright, rfl⟩ := unescape_append h hundone
  rw [unescape_unit h.1] at hright
  obtain ⟨more, -, rfl⟩ := Option.map_eq_some_iff.mp hright
  have hunit : unescape [unit] = some [unit] := unescape_unit h.1 []
  refine ⟨left ++ [unit], unescape_append_of hleft hunit, ?_⟩
  rw [List.count_append, List.count_append]
  exact Nat.add_le_add_left ((List.cons_sublist_cons.mpr (List.nil_sublist more)).count_le _) _

theorem whole_of_space {unit : ℕ} (h : isSpaceUnit unit = true) : Whole unit := by
  unfold isSpaceUnit at h
  rcases Bool.or_eq_true .. ▸ h with hlisted | hrange
  · have hall : ∀ unit ∈ [0x9, 0xA, 0xB, 0xC, 0xD, 0x20, 0xA0, 0x1680, 0x2028, 0x2029, 0x202F, 0x205F, 0x3000, 0xFEFF],
        Whole unit := by
      decide
    exact hall unit (of_decide_eq_true hlisted)
  · obtain ⟨hlow, hhigh⟩ := of_decide_eq_true hrange
    interval_cases unit <;> decide

theorem whole_of_bracket {unit : ℕ} (h : isOpenBracket unit = true ∨ isCloseBracket unit = true) : Whole unit := by
  unfold isOpenBracket isCloseBracket at h
  simp only [Bool.or_eq_true, decide_eq_true_eq] at h
  rcases h with (rfl | rfl) | rfl | rfl <;> decide

theorem trimText_parts (text : Text) : ∃ front back, text = front ++ (trimText text ++ back) ∧
    (∀ unit ∈ front, isSpaceUnit unit = true) ∧ ∀ unit ∈ back, isSpaceUnit unit = true := by
  refine ⟨text.takeWhile isSpaceUnit, (text.dropWhile isSpaceUnit).rtakeWhile isSpaceUnit, ?_,
    fun unit hunit => List.mem_takeWhile_imp hunit, fun unit hunit => ?_⟩
  · unfold trimText
    rw [List.rdropWhile_append_rtakeWhile, List.takeWhile_append_dropWhile]
  · exact List.mem_rtakeWhile_imp hunit

theorem within_trimText (text : Text) : Within (trimText text) text := by
  obtain ⟨front, back, htext, hfront, hback⟩ := trimText_parts text
  have hinner : Within (trimText text) (trimText text ++ back) :=
    within_before (fun unit hunit => whole_of_space (hback unit (List.mem_of_head? hunit))) _
  have houter := within_behind_plain (fun unit hunit => (whole_of_space (hfront unit hunit)).1) (trimText text ++ back)
  rw [← htext] at houter
  exact hinner.trans houter

theorem within_slice {text slice : Text} (h : sliceJsonObject text = some slice) : Within slice text := by
  unfold sliceJsonObject at h
  dsimp only at h
  split_ifs at h with hne
  obtain rfl := Option.some.inj h
  obtain ⟨unit, rest, hopened⟩ := List.exists_cons_of_ne_nil (l := text.dropWhile (!isOpenBracket ·)) (by
    intro hnil
    rw [hnil] at hne
    exact hne rfl)
  have hopen : Whole unit := whole_of_bracket (Or.inl (by simpa using head_of_dropWhile hopened))
  have houter := within_behind hopen (text.takeWhile (!isOpenBracket ·)) rest
  rw [← hopened, List.takeWhile_append_dropWhile] at houter
  have hlast := List.rdropWhile_last_not (!isCloseBracket ·) _ hne
  have hinner := within_upto (whole_of_bracket (Or.inr (by simpa using hlast)))
    ((text.dropWhile (!isOpenBracket ·)).rdropWhile (!isCloseBracket ·)).dropLast
    ((text.dropWhile (!isOpenBracket ·)).rtakeWhile (!isCloseBracket ·))
  rw [List.dropLast_append_getLast hne, List.rdropWhile_append_rtakeWhile] at hinner
  exact hinner.trans houter

/-! ## What comes out of a piece -/

/-- What the parses of a candidate come to. -/
theorem extractJson_eq_ok {text : Text} {v : JsonTree} : extractJson text = .ok v ↔ ∃ candidate,
    unwrapJsonCandidate text = .ok candidate ∧ (jsonParse candidate = some v ∨ jsonParse candidate = none ∧
      ∃ sliced, sliceJsonObject candidate = some sliced ∧ jsonParse sliced = some v) := by
  unfold extractJson
  rw [Program.except_bind_eq_ok]
  refine exists_congr fun candidate => and_congr_right fun _ => ?_
  cases hparse : jsonParse candidate with
  | some value =>
      refine ⟨fun h => Or.inl (congrArg some (Except.ok.inj h)), fun h => ?_⟩
      rcases h with h | ⟨h, -⟩
      · exact congrArg Except.ok (Option.some.inj h)
      · cases h
  | none =>
      dsimp only
      constructor
      · intro h
        right
        split at h
        · rename_i sliced hsliced
          split at h
          · rename_i value hvalue
            exact ⟨rfl, sliced, hsliced, hvalue.trans (congrArg some (Except.ok.inj h))⟩
          · cases h
        · cases h
      · rintro (h | ⟨-, sliced, hsliced, hvalue⟩)
        · cases h
        · rw [hsliced]
          dsimp only
          rw [hvalue]

theorem codeFence_eq : codeFence = [0x60, 0x60, 0x60] := by decide

/-- Where a fence follows a piece of the text, the value does not come out of the piece. -/
theorem not_read_before_fence {v : JsonTree} {text inner after candidate : Text} (h : Spelling (tokens v) text)
    (hwithin : Within (inner ++ (codeFence ++ after)) text) (hcandidate : candidate = trimText inner) :
    ¬(jsonParse candidate = some v ∨ jsonParse candidate = none ∧
      ∃ sliced, sliceJsonObject candidate = some sliced ∧ jsonParse sliced = some v) := by
  obtain ⟨undone, hundone, hticks⟩ := ticks_of_spelling h
  obtain ⟨less, hless, hle⟩ := hwithin undone hundone
  rw [codeFence_eq] at hless
  obtain ⟨left, right, hleft, hright, rfl⟩ := unescape_append (by decide) hless
  have hfew : left.count 0x60 < ticks v := by
    rw [unescape_unit (by decide)] at hright
    obtain ⟨more, -, rfl⟩ := Option.map_eq_some_iff.mp hright
    rw [List.count_append, List.count_cons_self] at hle
    omega
  have hpiece {piece : Text} (hpiece : Within piece inner) : jsonParse piece ≠ some v := by
    intro hparse
    obtain ⟨least, hleast, hcount⟩ := hpiece left hleft
    obtain ⟨again, hagain, hticks⟩ := ticks_le_of_parse hparse
    rw [hleast] at hagain
    obtain rfl := Option.some.inj hagain
    omega
  rw [hcandidate]
  rintro (hparse | ⟨-, sliced, hsliced, hparse⟩)
  · exact hpiece (within_trimText inner) hparse
  · exact hpiece ((within_slice hsliced).trans (within_trimText inner)) hparse

/-! ## Answers -/

/-- Text without braces, brackets and backticks. -/
def Prose (text : Text) : Prop :=
  ∀ unit ∈ text, isOpenBracket unit = false ∧ isCloseBracket unit = false ∧ unit ≠ 0x60

instance (text : Text) : Decidable (Prose text) := inferInstanceAs (Decidable (∀ _ ∈ _, _))

/-- An array or an object. -/
def isCollection : JsonTree → Bool
  | .array _ => true
  | .object _ => true
  | _ => false

theorem Prose.append {left right : Text} (h : Prose left) (h' : Prose right) : Prose (left ++ right) :=
  List.forall_mem_append.mpr ⟨h, h'⟩

theorem Prose.of_subset {text part : Text} (h : Prose text) (hpart : part ⊆ text) : Prose part :=
  fun unit hunit => h unit (hpart hunit)

theorem prose_of_space {space : Text} (h : ∀ unit ∈ space, isJsonSpace unit = true) : Prose space := by
  intro unit hunit
  have hspace := h unit hunit
  unfold isJsonSpace at hspace
  simp only [Bool.or_eq_true, decide_eq_true_eq] at hspace
  rcases hspace with ((rfl | rfl) | rfl) | rfl <;> decide

theorem isSpaceUnit_of_jsonSpace {unit : ℕ} (h : isJsonSpace unit = true) : isSpaceUnit unit = true := by
  unfold isJsonSpace at h
  simp only [Bool.or_eq_true, decide_eq_true_eq] at h
  rcases h with ((rfl | rfl) | rfl) | rfl <;> rfl

/-- The text of an array or an object, between white space. -/
structure Core (v : JsonTree) (first : ℕ) (middle : Text) (last : ℕ) : Prop where
  spelling : Spelling (tokens v) (first :: (middle ++ [last]))
  ends_with_mark : ∃ inner m, tokens v = inner ++ [.mark m]
  opens : isOpenBracket first = true
  closes : isCloseBracket last = true

theorem not_space_of_bracket {unit : ℕ} (h : isOpenBracket unit = true ∨ isCloseBracket unit = true) :
    isSpaceUnit unit = false := by
  unfold isOpenBracket isCloseBracket at h
  simp only [Bool.or_eq_true, decide_eq_true_eq] at h
  rcases h with (rfl | rfl) | rfl | rfl <;> rfl

theorem exists_tokens_collection {v : JsonTree} (h : isCollection v = true) : ∃ m inner m',
    tokens v = .mark m :: (inner ++ [.mark m']) ∧ isOpenBracket (markUnit m) = true ∧
      isCloseBracket (markUnit m') = true := by
  cases v with
  | atom a => cases h
  | string s => cases h
  | array items =>
      obtain ⟨front, hfront⟩ := itemTokens_concat items
      exact ⟨.openArray, front, .closeArray, by rw [tokens, hfront], rfl, rfl⟩
  | object members =>
      obtain ⟨front, hfront⟩ := memberTokens_concat members
      exact ⟨.openObject, front, .closeObject, by rw [tokens, hfront], rfl, rfl⟩

theorem exists_core {v : JsonTree} (hv : isCollection v = true) {text : Text} (h : Spelling (tokens v) text) :
    ∃ space first middle last after, text = space ++ (first :: (middle ++ [last]) ++ after) ∧ Core v first middle last ∧
      (∀ unit ∈ space, isJsonSpace unit = true) ∧ ∀ unit ∈ after, isJsonSpace unit = true := by
  obtain ⟨m, inner, m', htokens, hopen, hclose⟩ := exists_tokens_collection hv
  rw [htokens] at h
  cases h with
  | @cons space spelled text tok toks hspace htok htext =>
      obtain rfl : spelled = [markUnit m] := htok
      obtain ⟨middle, after, rfl, hafter, hspelling⟩ := htext.cut_last
      refine ⟨space, markUnit m, middle, markUnit m', after, ?_,
        ⟨?_, ⟨.mark m :: inner, m', htokens⟩, hopen, hclose⟩, hspace, hafter⟩
      · simp only [List.append_assoc, List.cons_append, List.nil_append]
      · have hmark : TokenSpelling (.mark m) [markUnit m] := rfl
        have hnone : ∀ unit ∈ ([] : Text), isJsonSpace unit = true := fun unit hunit => absurd hunit List.not_mem_nil
        rw [htokens]
        exact Spelling.cons hnone hmark hspelling

/-- Trimming takes white space off around what is not white space. -/
theorem trimText_around {first last : ℕ} (hfirst : isSpaceUnit first = false) (hlast : isSpaceUnit last = false)
    (front middle back : Text) : trimText (front ++ (first :: (middle ++ [last]) ++ back)) =
      front.dropWhile isSpaceUnit ++ (first :: (middle ++ [last]) ++ back.rdropWhile isSpaceUnit) :=
  Spacing.strip_around hfirst hlast front middle back

/-- The slice of an answer is what is between its brackets. -/
theorem sliceJsonObject_around {first last : ℕ} (hfirst : isOpenBracket first = true)
    (hlast : isCloseBracket last = true)
    {front back : Text} (hfront : Prose front) (hback : Prose back) (middle : Text) :
    sliceJsonObject (front ++ (first :: (middle ++ [last]) ++ back)) = some (first :: (middle ++ [last])) := by
  have hopen : (front ++ (first :: (middle ++ [last]) ++ back)).dropWhile (!isOpenBracket ·) =
      first :: middle ++ [last] ++ back := by
    rw [List.cons_append, dropWhile_around (by rw [hfirst]; rfl)]
    rw [List.dropWhile_eq_nil_iff.mpr fun unit hunit => by rw [(hfront unit hunit).1]; rfl]
    rfl
  have hclose : (first :: middle ++ [last] ++ back).rdropWhile (!isCloseBracket ·) = first :: middle ++ [last] := by
    rw [rdropWhile_around (by rw [hlast]; rfl)]
    rw [List.rdropWhile_eq_nil_iff.mpr fun unit hunit => by rw [(hback unit hunit).2.1]; rfl, List.append_nil]
  unfold sliceJsonObject
  dsimp only
  rw [hopen, hclose, List.cons_append, if_neg (List.cons_ne_nil _ _)]

/-! ## Fences -/

/-- Two code fences, one behind the other. -/
def HasFence (text : Text) : Prop :=
  ∃ before inner after, text = before ++ (codeFence ++ (inner ++ (codeFence ++ after)))

theorem infix_behind {front text : Text} (hfront : 0x60 ∉ front) (h : codeFence <:+: front ++ text) :
    codeFence <:+: text := by
  have hletters : ∀ unit ∈ codeFence, unit ∉ front := by
    rw [codeFence_eq]
    intro unit hunit
    have htick : unit = 0x60 := by simpa using hunit
    rwa [htick]
  have hcut := cut_isSome_iff.mpr h
  rw [cut_behind hletters (by rw [codeFence_eq]; exact List.cons_ne_nil _ _), Option.isSome_map] at hcut
  exact cut_isSome_iff.mp hcut

theorem dropJsonTag_parts (text : Text) : ∃ tag, text = tag ++ dropJsonTag text ∧ ∀ unit ∈ tag, unit ≠ 0x5C ∧
    unit ≠ 0x60 := by
  unfold dropJsonTag
  split_ifs with htag
  · refine ⟨text.take 4, (List.take_append_drop 4 text).symm, fun unit hunit => ?_⟩
    have hmem : asciiLower unit ∈ codeUnits "json" := htag ▸ List.mem_map_of_mem hunit
    have hjson : ∀ letter ∈ codeUnits "json", letter ≠ 0x5C ∧ letter ≠ 0x60 := by decide
    have hlower := hjson _ hmem
    constructor
    · rintro rfl
      exact hlower.1 rfl
    · rintro rfl
      exact hlower.2 rfl
  · exact ⟨[], rfl, fun unit hunit => absurd hunit List.not_mem_nil⟩

/-- What is between the tag of a fence and the text in it. -/
theorem opened_parts (opened : Text) : ∃ plain, opened = plain ++ (dropJsonTag opened).dropWhile isSpaceUnit ∧
    ∀ unit ∈ plain, unit ≠ 0x5C ∧ unit ≠ 0x60 := by
  obtain ⟨tag, htag, hunits⟩ := dropJsonTag_parts opened
  refine ⟨tag ++ (dropJsonTag opened).takeWhile isSpaceUnit, ?_,
    List.forall_mem_append.mpr ⟨hunits, fun unit hunit => ?_⟩⟩
  · rw [List.append_assoc, List.takeWhile_append_dropWhile, ← htag]
  · have hspace := List.mem_takeWhile_imp hunit
    constructor
    all_goals
      rintro rfl
      cases hspace

theorem fencedText_parts {text inner : Text} (h : fencedText text = some inner) : ∃ before plain after,
    text = before ++ (codeFence ++ (plain ++ (inner ++ (codeFence ++ after)))) ∧ ∀ unit ∈ plain, unit ≠ 0x5C ∧
      unit ≠ 0x60 := by
  unfold fencedText at h
  obtain ⟨⟨before, opened⟩, hcut, h⟩ := Option.bind_eq_some_iff.mp h
  obtain ⟨⟨inner', after⟩, hinner, h⟩ := Option.bind_eq_some_iff.mp h
  cases h
  obtain ⟨plain, hplain, hunits⟩ := opened_parts opened
  refine ⟨before, plain, after, ?_, hunits⟩
  rw [cut_eq_some hcut]
  rw [cut_eq_some hinner] at hplain
  rw [← hplain]

theorem fencedText_isSome_iff {text : Text} : (fencedText text).isSome = true ↔ HasFence text := by
  constructor
  · intro h
    obtain ⟨inner, hinner⟩ := Option.isSome_iff_exists.mp h
    obtain ⟨before, plain, after, htext, -⟩ := fencedText_parts hinner
    exact ⟨before, plain ++ inner, after, by rw [htext, List.append_assoc]⟩
  · rintro ⟨before, inner, after, htext⟩
    have hcontains : codeFence <:+: text := ⟨before, inner ++ (codeFence ++ after), by rw [List.append_assoc, ← htext]⟩
    obtain ⟨⟨front, opened⟩, hcut⟩ := Option.isSome_iff_exists.mp (cut_isSome_iff.mpr hcontains)
    have hshort := length_le_of_cut hcut htext
    have hopened : codeFence ++ after <:+ opened := by
      have hwhole := cut_eq_some hcut
      have hsuffix : codeFence ++ after <:+ text :=
        ⟨before ++ (codeFence ++ inner), by rw [htext]; simp only [List.append_assoc]⟩
      have hsuffix' : opened <:+ text := ⟨front ++ codeFence, by rw [hwhole, List.append_assoc]⟩
      refine List.suffix_of_suffix_length_le hsuffix hsuffix' ?_
      have hlength := congrArg List.length (hwhole.symm.trans htext)
      simp only [List.length_append] at hlength ⊢
      omega
    obtain ⟨plain, hplain, hunits⟩ := opened_parts opened
    have hbehind : codeFence <:+: (dropJsonTag opened).dropWhile isSpaceUnit := by
      refine @infix_behind plain _ (fun hmem => (hunits _ hmem).2 rfl) ?_
      rw [← hplain]
      exact (List.prefix_append _ _).isInfix.trans hopened.isInfix
    obtain ⟨⟨inner', after'⟩, hinner⟩ := Option.isSome_iff_exists.mp (cut_isSome_iff.mpr hbehind)
    unfold fencedText
    rw [hcut]
    show (cut codeFence ((dropJsonTag opened).dropWhile isSpaceUnit) >>= fun parts => some parts.1).isSome = true
    rw [hinner]
    rfl

/-- Prose around a text has no part in its fences. -/
theorem hasFence_around {front text back : Text} (hfront : Prose front) (hback : Prose back) :
    HasFence (front ++ (text ++ back)) ↔ HasFence text := by
  unfold HasFence
  rw [codeFence_eq]
  constructor
  · rintro ⟨before, inner, after, h⟩
    have hsame : front ++ (text ++ back) = before ++
        (0x60 :: ((0x60 :: 0x60 :: (inner ++ [0x60, 0x60])) ++ 0x60 :: after)) := by
      rw [h]
      simp only [List.append_assoc, List.cons_append, List.nil_append]
    obtain ⟨before', after', htext, -⟩ := inside_of_around (fun hmem => (hfront _ hmem).2.2 rfl)
      (fun hmem => (hback _ hmem).2.2 rfl) hsame
    refine ⟨before', inner, after', ?_⟩
    rw [htext]
    simp only [List.append_assoc, List.cons_append, List.nil_append]
  · rintro ⟨before, inner, after, rfl⟩
    refine ⟨front ++ before, inner, after ++ back, ?_⟩
    simp only [List.append_assoc]

/-- The text of a fence that is in a value is a piece of the value's text. -/
theorem within_of_fenced {front text back inner : Text} (hfront : Prose front) (hback : Prose back)
    (h : fencedText (front ++ (text ++ back)) = some inner) : ∃ after, Within (inner ++ (codeFence ++ after)) text := by
  obtain ⟨before, plain, after, htext, hunits⟩ := fencedText_parts h
  rw [codeFence_eq] at htext ⊢
  have hsame : front ++ (text ++ back) =
      before ++ (0x60 :: ((0x60 :: 0x60 :: (plain ++ (inner ++ [0x60, 0x60]))) ++ 0x60 :: after)) := by
    rw [htext]
    simp only [List.append_assoc, List.cons_append, List.nil_append]
  obtain ⟨before', after', htext', -⟩ := inside_of_around (fun hmem => (hfront _ hmem).2.2 rfl)
    (fun hmem => (hback _ hmem).2.2 rfl) hsame
  have hfence : ∀ unit ∈ [0x60, 0x60, 0x60] ++ plain, unit ≠ 0x5C :=
    List.forall_mem_append.mpr ⟨by decide, fun unit hunit => (hunits unit hunit).1⟩
  have houter := within_behind (show Whole 0x60 by decide) before'
    ((0x60 :: 0x60 :: (plain ++ (inner ++ [0x60, 0x60]))) ++ 0x60 :: after')
  have hinner := within_behind_plain hfence (inner ++ ([0x60, 0x60, 0x60] ++ after'))
  refine ⟨after', hinner.trans ?_⟩
  rw [htext']
  simpa only [List.append_assoc, List.cons_append, List.nil_append] using houter

/-! ## Parsing an answer without a fence -/

theorem isOpenBracket_of_markOf {unit : ℕ} {m : Mark} (h : markOf unit = some m)
    (hm : m = .openArray ∨ m = .openObject) :
    isOpenBracket unit = true := by
  unfold markOf at h
  split_ifs at h with harray _ hobject
  · rw [harray]
    rfl
  · rcases hm with rfl | rfl <;> cases h
  · rw [hobject]
    rfl
  all_goals rcases hm with rfl | rfl <;> cases h

/-- Where the answer is a JSON text but no string, it is that of the value. -/
theorem jsonParse_around {v w : JsonTree} {first last : ℕ} {front middle back : Text} (hdistinct : Distinct v)
    (hcore : Core v first middle last) (hfront : Prose front) (hstart : ∀ unit ∈ front.head?, isSpaceUnit unit = false)
    (hend : ∀ unit ∈ back.getLast?, isSpaceUnit unit = false)
    (hstring : ∀ s, ¬TokenSpelling (.string s) (front ++ (first :: (middle ++ [last]) ++ back)))
    (h : jsonParse (front ++ (first :: (middle ++ [last]) ++ back)) = some w) : w = v := by
  obtain ⟨syn, hlex, rfl⟩ := jsonParse_eq_some.mp h
  cases front with
  | nil =>
      obtain ⟨inner, m, htokens⟩ := hcore.ends_with_mark
      obtain ⟨more, hmore⟩ := lex_append hcore.spelling (isChain_tokens v) htokens hlex
      obtain ⟨rfl, -⟩ := tokens_prefix hmore
      exact lastWins_of_distinct syn hdistinct
  | cons unit front =>
      have hunit : ¬isJsonSpace unit = true := by
        intro hspace
        have hnot := hstart unit rfl
        rw [isSpaceUnit_of_jsonSpace hspace] at hnot
        cases hnot
      rw [List.cons_append, lex, List.dropWhile_cons_of_neg hunit] at hlex
      dsimp only at hlex
      obtain ⟨⟨tok, after⟩, hnext, hlex⟩ := Option.bind_eq_some_iff.mp hlex
      obtain ⟨toks, hrest, hlex⟩ := Option.bind_eq_some_iff.mp hlex
      have htokens : tokens syn = tok :: toks := (Option.some.inj hlex).symm
      exfalso
      rcases nextToken_cases hnext with ⟨rfl, s, rfl, hread⟩ | ⟨m, rfl, hmark, -⟩ | ⟨a, plain, rfl, hplain, hunits⟩
      · obtain ⟨-, rfl⟩ := tokens_prefix (v := .string s) htokens
        obtain ⟨body, hbody, hrest'⟩ := readString_eq_some hread
        refine hstring s ⟨body, hbody, ?_⟩
        have hafter : after = [] := by
          rcases List.eq_nil_or_concat after with rfl | ⟨init, final, rfl⟩
          · rfl
          · exfalso
            have hspace := space_of_lex_nil hrest final (by simp)
            have hfinal : ∀ unit ∈ (first :: (middle ++ [last]) ++ back).getLast?, isSpaceUnit unit = false := by
              rcases List.eq_nil_or_concat back with rfl | ⟨back, other, rfl⟩
              · rw [List.append_nil, ← List.cons_append, List.getLast?_concat]
                exact fun unit hunit => Option.some.inj hunit ▸ not_space_of_bracket (Or.inr hcore.closes)
              · rw [List.concat_eq_append] at hend ⊢
                rwa [← List.append_assoc, List.getLast?_concat, ← List.getLast?_concat (l := back)]
            have hbehind : (body ++ 0x22 :: init.concat final).getLast? = some final := by
              rw [List.concat_eq_append, ← List.cons_append, ← List.append_assoc, List.getLast?_concat]
            have hends := congrArg List.getLast? hrest'
            rw [List.getLast?_append_of_ne_nil _ (by simp), hbehind] at hends
            have hnot := hfinal final hends
            rw [isSpaceUnit_of_jsonSpace hspace] at hnot
            cases hnot
        rw [List.cons_append, hrest', hafter]
      · cases syn with
        | atom a => cases htokens
        | string s => cases htokens
        | array items =>
            have hopen := isOpenBracket_of_markOf hmark (Or.inl (Token.mark.inj (List.cons.inj htokens).1).symm)
            exact Bool.false_ne_true ((hfront unit List.mem_cons_self).1.symm.trans hopen)
        | object members =>
            have hopen := isOpenBracket_of_markOf hmark (Or.inr (Token.mark.inj (List.cons.inj htokens).1).symm)
            exact Bool.false_ne_true ((hfront unit List.mem_cons_self).1.symm.trans hopen)
      · obtain ⟨-, rfl⟩ := tokens_prefix (v := .atom a) htokens
        have hmem : first ∈ plain ++ after := by
          rw [← hplain]
          simp
        rcases List.mem_append.mp hmem with hmem | hmem
        · exact Bool.false_ne_true ((isPlain_iff.mp (hunits _ hmem)).2.2.1.symm.trans hcore.opens)
        · have hspace := space_of_lex_nil hrest first hmem
          have hnot := not_space_of_bracket (Or.inl hcore.opens)
          rw [isSpaceUnit_of_jsonSpace hspace] at hnot
          cases hnot

/-! ## What the model meant -/

theorem rdropWhile_getLast (p : ℕ → Bool) (text : Text) : ∀ unit ∈ (text.rdropWhile p).getLast?, p unit = false := by
  intro unit hunit
  have hne : text.rdropWhile p ≠ [] := by
    rintro hnil
    rw [hnil] at hunit
    cases hunit
  have hlast := List.rdropWhile_last_not p text hne
  rw [List.getLast?_eq_some_getLast hne] at hunit
  rw [← Option.some.inj hunit]
  simpa using hlast

section Answers

variable {v : JsonTree} {json before after : Text}

/-- Between prose, the value comes out where no two fences are in its text and the answer is no JSON string. -/
theorem extractJson_prose (hv : isCollection v = true) (hdistinct : Distinct v) (hjson : Spelling (tokens v) json)
    (hbefore : Prose before) (hafter : Prose after) : extractJson (before ++ (json ++ after)) = .ok v ↔
      ¬HasFence json ∧ ∀ s, ¬TokenSpelling (.string s) (trimText (before ++ (json ++ after))) := by
  obtain ⟨space, first, middle, last, space', rfl, hcore, hspace, hspace'⟩ := exists_core hv hjson
  have hfront : Prose (before ++ space) := hbefore.append (prose_of_space hspace)
  have hback : Prose (space' ++ after) := (prose_of_space hspace').append hafter
  have hfirst := not_space_of_bracket (Or.inl hcore.opens)
  have hlast := not_space_of_bracket (Or.inr hcore.closes)
  have htext : before ++ (space ++ (first :: (middle ++ [last]) ++ space') ++ after) =
      (before ++ space) ++ (first :: (middle ++ [last]) ++ (space' ++ after)) := by
    simp only [List.append_assoc]
  have htrim := trimText_around hfirst hlast (before ++ space) middle (space' ++ after)
  rw [htext]
  generalize hfront' : (before ++ space).dropWhile isSpaceUnit = front at htrim
  generalize hback' : (space' ++ after).rdropWhile isSpaceUnit = back at htrim
  have hfrontProse : Prose front := hfront.of_subset (hfront' ▸ (List.dropWhile_suffix _).subset)
  have hbackProse : Prose back := hback.of_subset (hback' ▸ (List.rdropWhile_prefix _ _).subset)
  have hstart : ∀ unit ∈ front.head?, isSpaceUnit unit = false := by
    intro unit hunit
    cases hcons : front with
    | nil =>
        rw [hcons] at hunit
        cases hunit
    | cons unit' rest =>
        rw [hcons] at hunit
        obtain rfl := Option.some.inj hunit
        exact head_of_dropWhile (hfront'.trans hcons)
  have hend : ∀ unit ∈ back.getLast?, isSpaceUnit unit = false := hback' ▸ rdropWhile_getLast _ _
  have hfence : HasFence (space ++ (first :: (middle ++ [last]) ++ space')) ↔
      HasFence (front ++ (first :: (middle ++ [last]) ++ back)) := by
    rw [hasFence_around (prose_of_space hspace) (prose_of_space hspace'), hasFence_around hfrontProse hbackProse]
  have hunwrap : unwrapJsonCandidate ((before ++ space) ++ (first :: (middle ++ [last]) ++ (space' ++ after))) =
      .ok (trimText ((fencedText (front ++ (first :: (middle ++ [last]) ++ back))).getD
        (front ++ (first :: (middle ++ [last]) ++ back)))) := by
    unfold unwrapJsonCandidate
    dsimp only
    rw [htrim, if_neg (by simp)]
  have hparsed : jsonParse (first :: (middle ++ [last])) = some v := jsonParse_spelling hdistinct hcore.spelling
  have htrimmed : trimText (front ++ (first :: (middle ++ [last]) ++ back)) =
      front ++ (first :: (middle ++ [last]) ++ back) := by
    rw [← htrim]
    exact Spacing.strip_strip _
  rw [htrim, hfence, extractJson_eq_ok, hunwrap]
  constructor
  · rintro ⟨candidate, hcandidate, hread⟩
    obtain rfl := Except.ok.inj hcandidate
    have hnofence : ¬HasFence (front ++ (first :: (middle ++ [last]) ++ back)) := by
      intro hfenced
      obtain ⟨inner, hinner⟩ := Option.isSome_iff_exists.mp (fencedText_isSome_iff.mpr hfenced)
      obtain ⟨rest, hwithin⟩ := within_of_fenced hfrontProse hbackProse hinner
      rw [hinner, Option.getD_some] at hread
      exact not_read_before_fence hcore.spelling hwithin rfl hread
    refine ⟨hnofence, fun s hs => ?_⟩
    have hnone := Option.not_isSome_iff_eq_none.mp (mt fencedText_isSome_iff.mp hnofence)
    rw [hnone, Option.getD_none, htrimmed] at hread
    have hspelling : Spelling (tokens (.string s)) (front ++ (first :: (middle ++ [last]) ++ back)) := by
      have hnil : ∀ unit ∈ ([] : Text), isJsonSpace unit = true := fun unit hunit => absurd hunit List.not_mem_nil
      have hwhole := Spelling.cons hnil hs (Spelling.nil hnil)
      rwa [List.nil_append, List.append_nil] at hwhole
    rw [jsonParse_spelling (show Distinct (.string s : JsonTree) from trivial) hspelling] at hread
    rcases hread with hread | ⟨hread, -⟩
    · rw [← Option.some.inj hread] at hv
      cases hv
    · cases hread
  · rintro ⟨hnofence, hstring⟩
    have hnone := Option.not_isSome_iff_eq_none.mp (mt fencedText_isSome_iff.mp hnofence)
    refine ⟨_, rfl, ?_⟩
    rw [hnone, Option.getD_none, htrimmed]
    cases hparse : jsonParse (front ++ (first :: (middle ++ [last]) ++ back)) with
    | some w =>
        left
        rw [jsonParse_around hdistinct hcore hfrontProse hstart hend hstring hparse]
    | none =>
        right
        exact ⟨rfl, _, sliceJsonObject_around hcore.opens hcore.closes hfrontProse hbackProse middle, hparsed⟩

theorem dropJsonTag_tag {tag rest : Text} (htag : tag = [] ∨ tag.map asciiLower = codeUnits "json")
    (hrest : ∀ unit ∈ rest.head?, asciiLower unit ≠ 'j'.toNat) : dropJsonTag (tag ++ rest) = rest := by
  have hjson : codeUnits "json" = ['j'.toNat, 's'.toNat, 'o'.toNat, 'n'.toNat] := by decide
  unfold dropJsonTag
  rcases htag with rfl | htag
  · rw [List.nil_append, if_neg]
    intro heq
    rw [hjson] at heq
    cases rest with
    | nil => cases heq
    | cons unit rest => exact hrest unit rfl (List.cons.inj heq).1
  · have hlength : tag.length = 4 := by
      have hmapped := congrArg List.length htag
      rwa [List.length_map, hjson] at hmapped
    rw [List.take_left' hlength, if_pos htag, List.drop_left' hlength]

/-- The text of a fence that an array or an object is in. -/
theorem fencedText_opened {front tag space rest : Text} {first : ℕ} (hfront : Prose front)
    (htag : tag = [] ∨ tag.map asciiLower = codeUnits "json") (hspace : ∀ unit ∈ space, isJsonSpace unit = true)
    (hfirst : isOpenBracket first = true) : fencedText (front ++ (codeFence ++ (tag ++ (space ++ first :: rest)))) =
      (cut codeFence (first :: rest)).map Prod.fst := by
  have hcut : cut codeFence (front ++ (codeFence ++ (tag ++ (space ++ first :: rest)))) =
      some (front, tag ++ (space ++ first :: rest)) := by
    have hletters : ∀ unit ∈ codeFence, unit ∉ front := by
      rw [codeFence_eq]
      intro unit hunit hmem
      have htick : unit = 0x60 := by simpa using hunit
      exact (hfront _ hmem).2.2 htick
    rw [cut_behind hletters (by rw [codeFence_eq]; exact List.cons_ne_nil _ _), cut_of_begins (List.prefix_append _ _),
      List.drop_left, Option.map_some, List.append_nil]
  have hopened : dropJsonTag (tag ++ (space ++ first :: rest)) = space ++ first :: rest := by
    refine dropJsonTag_tag htag fun unit hunit => ?_
    have hmem : unit ∈ space ∨ unit = first := by
      cases space with
      | nil => exact Or.inr (Option.some.inj hunit).symm
      | cons other space => exact Or.inl (Option.some.inj hunit ▸ List.mem_cons_self)
    rcases hmem with hmem | rfl
    · have hjson := hspace unit hmem
      unfold isJsonSpace at hjson
      simp only [Bool.or_eq_true, decide_eq_true_eq] at hjson
      rcases hjson with ((rfl | rfl) | rfl) | rfl <;> decide
    · unfold isOpenBracket at hfirst
      simp only [Bool.or_eq_true, decide_eq_true_eq] at hfirst
      rcases hfirst with rfl | rfl <;> decide
  have hdropped : (space ++ first :: rest).dropWhile isSpaceUnit = first :: rest := by
    rw [dropWhile_around (not_space_of_bracket (Or.inl hfirst)),
      List.dropWhile_eq_nil_iff.mpr fun unit hunit => isSpaceUnit_of_jsonSpace (hspace unit hunit)]
    rfl
  unfold fencedText
  rw [hcut]
  show (cut codeFence ((dropJsonTag (tag ++ (space ++ first :: rest))).dropWhile isSpaceUnit) >>= fun parts =>
    some parts.1) = _
  rw [hopened, hdropped]
  exact Option.map_eq_bind.symm

/-- In a fence, the value comes out where its text has none. -/
theorem extractJson_fence (hv : isCollection v = true) (hdistinct : Distinct v) (hjson : Spelling (tokens v) json)
    (hbefore : Prose before) {tag : Text} (htag : tag = [] ∨ tag.map asciiLower = codeUnits "json") :
    extractJson (before ++ (codeFence ++ (tag ++ (json ++ (codeFence ++ after))))) = .ok v ↔ ¬codeFence <:+: json := by
  obtain ⟨space, first, middle, last, space', rfl, hcore, hspace, hspace'⟩ := exists_core hv hjson
  have hfirst := not_space_of_bracket (Or.inl hcore.opens)
  have hlast := not_space_of_bracket (Or.inr hcore.closes)
  generalize hfront : before.dropWhile isSpaceUnit = front
  generalize hback : after.rdropWhile isSpaceUnit = back
  have hfrontProse : Prose front := hbefore.of_subset (hfront ▸ (List.dropWhile_suffix _).subset)
  have hunwrap : unwrapJsonCandidate (before ++ (codeFence ++ (tag ++
      (space ++ (first :: (middle ++ [last]) ++ space') ++ (codeFence ++ after))))) =
      .ok (trimText (((cut codeFence (first :: (middle ++ [last]) ++ space' ++ (codeFence ++ back))).map Prod.fst).getD
        (front ++ (codeFence ++
          (tag ++ (space ++ (first :: (middle ++ [last]) ++ space') ++ (codeFence ++ back))))))) := by
    have htick : isSpaceUnit 0x60 = false := rfl
    have htrim := trimText_around htick htick before
      (0x60 :: 0x60 :: (tag ++ (space ++ (first :: (middle ++ [last]) ++ space') ++ [0x60, 0x60]))) after
    have hopened := @fencedText_opened front tag space (middle ++ [last] ++ space' ++ (codeFence ++ back)) first
      hfrontProse htag hspace hcore.opens
    rw [hfront, hback] at htrim
    rw [codeFence_eq] at hopened ⊢
    simp only [List.append_assoc, List.cons_append, List.nil_append] at htrim hopened ⊢
    unfold unwrapJsonCandidate
    dsimp only
    rw [htrim, if_neg (by simp), hopened]
  rw [extractJson_eq_ok, hunwrap]
  constructor
  · rintro ⟨candidate, hcandidate, hread⟩ hfenced
    obtain rfl := Except.ok.inj hcandidate
    have hspaceTick : 0x60 ∉ space := fun hmem => (prose_of_space hspace _ hmem).2.2 rfl
    have hinside := infix_behind hspaceTick hfenced
    obtain ⟨⟨inner, rest⟩, hcut⟩ := Option.isSome_iff_exists.mp (cut_isSome_iff.mpr hinside)
    have hwithin : Within (inner ++ (codeFence ++ rest)) (space ++ (first :: (middle ++ [last]) ++ space')) := by
      rw [cut_eq_some hcut]
      exact within_behind_plain (fun unit hunit => (whole_of_space (isSpaceUnit_of_jsonSpace (hspace unit hunit))).1) _
    rw [cut_append hcut, Option.map_some, Option.getD_some] at hread
    exact not_read_before_fence hjson hwithin rfl hread
  · intro hfenced
    refine ⟨_, rfl, Or.inl ?_⟩
    have hnone : ¬codeFence <:+: first :: (middle ++ [last]) ++ space' := fun hcontains =>
      hfenced (hcontains.trans (List.suffix_append _ _).isInfix)
    have hends : ∃ init final, first :: (middle ++ [last]) ++ space' = init ++ [final] ∧ final ≠ 0x60 := by
      rcases List.eq_nil_or_concat space' with rfl | ⟨init, final, rfl⟩
      · refine ⟨first :: middle, last, by rw [List.append_nil]; rfl, ?_⟩
        rintro rfl
        cases hcore.closes
      · refine ⟨first :: (middle ++ [last]) ++ init, final, by rw [List.concat_eq_append, List.append_assoc], ?_⟩
        rintro rfl
        cases hspace' 0x60 (by simp)
    obtain ⟨init, final, hsplit, hfinal⟩ := hends
    have hcut : cut codeFence (first :: (middle ++ [last]) ++ space' ++ (codeFence ++ back)) =
        some (first :: (middle ++ [last]) ++ space', back) := by
      rw [hsplit] at hnone ⊢
      refine cut_at_end ?_ hnone back
      rw [codeFence_eq]
      simpa using hfinal
    have htrim := trimText_around hfirst hlast [] middle space'
    rw [List.dropWhile_nil, List.nil_append, List.nil_append,
      List.rdropWhile_eq_nil_iff.mpr fun unit hunit => isSpaceUnit_of_jsonSpace (hspace' unit hunit),
      List.append_nil] at htrim
    rw [hcut, Option.map_some, Option.getD_some, htrim]
    exact jsonParse_spelling hdistinct hcore.spelling

/-- The value comes out of prose where no two fences are in its text and the answer is no JSON string, and out of a
fence where none is in its text. -/
theorem meant_json_recovered_iff (hv : isCollection v = true) (hdistinct : Distinct v)
    (hjson : Spelling (tokens v) json)
    (hbefore : Prose before) (hafter : Prose after) :
    (extractJson (before ++ (json ++ after)) = .ok v ↔
      ¬HasFence json ∧ ∀ s, ¬TokenSpelling (.string s) (trimText (before ++ (json ++ after)))) ∧
    ∀ tag : Text, (tag = [] ∨ tag.map asciiLower = codeUnits "json") →
      (extractJson (before ++ (codeFence ++ (tag ++ (json ++ (codeFence ++ after))))) = .ok v ↔ ¬codeFence <:+: json) :=
  ⟨extractJson_prose hv hdistinct hjson hbefore hafter, fun _ htag => extractJson_fence hv hdistinct hjson hbefore htag⟩

end Answers

def noNumbers (_ : JsNumber) : Text := []

theorem meant_json_recovered_of_reply :
    extractJson (codeUnits "Here it is: \x7b\"answer\":[\"yes\"]\x7d. Anything else?") =
      .ok (.object [(codeUnits "answer", .array [.string (codeUnits "yes")])]) ∧
    extractJson (codeUnits "Here it is: ```json\x7b\"answer\":[\"yes\"]\x7d```. Anything else?") =
      .ok (.object [(codeUnits "answer", .array [.string (codeUnits "yes")])]) := by
  have hvalue : Distinct (Value.object [(codeUnits "answer", .array [.string (codeUnits "yes")])] : JsonTree) :=
    ⟨List.nodup_singleton _, ⟨trivial, trivial⟩, trivial⟩
  have hjson := @spelling_jsonStringify noNumbers (.object [(codeUnits "answer", .array [.string (codeUnits "yes")])])
    (by intro n hn; simp [tokens, itemTokens, memberTokens] at hn)
  have hrecovered := @meant_json_recovered_iff _ _ (codeUnits "Here it is: ")
      (codeUnits ". Anything else?") rfl hvalue hjson
    (by decide) (by decide)
  constructor
  · have htext : codeUnits "Here it is: \x7b\"answer\":[\"yes\"]\x7d. Anything else?" = codeUnits "Here it is: " ++
        (jsonStringify noNumbers (.object [(codeUnits "answer", .array [.string (codeUnits "yes")])]) ++
          codeUnits ". Anything else?") := by
      decide
    rw [htext]
    refine hrecovered.1.mpr ⟨mt fencedText_isSome_iff.mpr (by decide), fun s hs => ?_⟩
    obtain ⟨body, -, hquoted⟩ := hs
    have hhead := congrArg List.head? hquoted
    rw [List.head?_cons] at hhead
    revert hhead
    decide
  · have htext : codeUnits "Here it is: ```json\x7b\"answer\":[\"yes\"]\x7d```. Anything else?" =
      codeUnits "Here it is: " ++
        (codeFence ++ (codeUnits "json" ++
          (jsonStringify noNumbers (.object [(codeUnits "answer", .array [.string (codeUnits "yes")])]) ++
            (codeFence ++ codeUnits ". Anything else?")))) := by
      decide
    rw [htext]
    exact (hrecovered.2 (codeUnits "json") (Or.inr (by decide))).mpr (by decide)

/-- A fence in a string of the value. -/
def fencedAnswer : JsonTree := .object [(codeUnits "answer", .string (codeUnits "```\nok\n```"))]

theorem meant_json_lost : ¬∀ (v : JsonTree) (json before after : Text), isCollection v = true → Distinct v →
    Spelling (tokens v) json → Prose before → Prose after → extractJson (before ++ (json ++ after)) = .ok v ∧
      ∀ tag : Text, (tag = [] ∨ tag.map asciiLower = codeUnits "json") →
        extractJson (before ++ (codeFence ++ (tag ++ (json ++ (codeFence ++ after))))) = .ok v := by
  intro h
  have hvalue : Distinct fencedAnswer := ⟨List.nodup_singleton _, trivial, trivial⟩
  have hjson : Spelling (tokens fencedAnswer) (jsonStringify noNumbers fencedAnswer) :=
    spelling_jsonStringify (by intro n hn; simp [fencedAnswer, tokens, memberTokens] at hn)
  have hnone : Prose [] := fun unit hunit => absurd hunit List.not_mem_nil
  have hrecovered := (h fencedAnswer _ [] [] rfl hvalue hjson hnone hnone).1
  exact (extractJson_prose rfl hvalue hjson hnone hnone).mp hrecovered |>.1 (fencedText_isSome_iff.mp (by decide))

end DealFlow360.Ai
