import DealFlow360.Lib.JsonSyntax
import DealFlow360.Numerals

/-!
# JSON texts

`JSON.parse`: the text is cut into tokens, with white space around them, and
the tokens are read as a value. `Spelling` is the other direction, every text
of a sequence of tokens, with any white space, escapes and spellings of
numbers.

The two directions are proved against each other. A spelling is cut into its
tokens (`lex_spelling`) and read as its value (`jsonParse_spelling`), provided
no key is there twice; and a text that is read was such a spelling. What the
tokens of a value are, and that they determine it, comes from `Lib.JsonSyntax`.

The last sections are what the extraction of a value out of a longer text
needs: where a spelling ends, and that what follows a closing mark does not
change what was cut before it.
-/

namespace DealFlow360

open Events (Text)
open JsonSyntax

inductive JsonAtom where
  | null
  | bool (b : Bool)
  | number (n : JsNumber)
  deriving DecidableEq

/-- A JSON value whose strings are lists of code units. -/
abbrev JsonTree := Value JsonAtom Text

abbrev JsonToken := Token JsonAtom Text

def isJsonSpace (unit : ℕ) : Bool := unit = 0x20 || unit = 0x09 || unit = 0x0A || unit = 0x0D

def markOf (unit : ℕ) : Option Mark :=
  if unit = '['.toNat then some .openArray
  else if unit = ']'.toNat then some .closeArray
  else if unit = '{'.toNat then some .openObject
  else if unit = '}'.toNat then some .closeObject
  else if unit = ':'.toNat then some .colon
  else if unit = ','.toNat then some .comma
  else none

def markUnit : Mark → ℕ
  | .openArray => '['.toNat
  | .closeArray => ']'.toNat
  | .openObject => '{'.toNat
  | .closeObject => '}'.toNat
  | .colon => ':'.toNat
  | .comma => ','.toNat

/-! ## Strings -/

/-- The unit that a backslash and a letter stand for. -/
def simpleEscape (letter : ℕ) : Option ℕ :=
  if letter = '"'.toNat ∨ letter = '\\'.toNat ∨ letter = '/'.toNat then some letter
  else if letter = 'b'.toNat then some 0x08
  else if letter = 'f'.toNat then some 0x0C
  else if letter = 'n'.toNat then some 0x0A
  else if letter = 'r'.toNat then some 0x0D
  else if letter = 't'.toNat then some 0x09
  else none

/-- A string, from behind its first quote, and what follows it. -/
def readString : Text → Option (Text × Text)
  | [] => none
  | 0x22 :: rest => some ([], rest)
  | 0x5C :: 0x75 :: a :: b :: c :: d :: rest =>
      match radixValue 16 [a, b, c, d] with
      | some unit => (readString rest).map fun read => (unit :: read.1, read.2)
      | none => none
  | 0x5C :: letter :: rest =>
      match simpleEscape letter with
      | some unit => (readString rest).map fun read => (unit :: read.1, read.2)
      | none => none
  | unit :: rest => if unit < 0x20 then none else (readString rest).map fun read => (unit :: read.1, read.2)

/-! ## Numbers -/

def isNumberUnit (unit : ℕ) : Bool :=
  isDigit unit || unit = '-'.toNat || unit = '+'.toNat || unit = '.'.toNat || isExponentMark unit

/-- `-?(0|[1-9]\d*)(\.\d+)?([eE][+-]?\d+)?`. -/
def isJsonNumber (literal : Text) : Bool :=
  let digits := if literal.head? = some '-'.toNat then literal.tail else literal
  let mantissa := digits.takeWhile (!isExponentMark ·)
  let whole := mantissa.takeWhile (· ≠ '.'.toNat)
  let places := mantissa.dropWhile (· ≠ '.'.toNat)
  let exponent := digits.dropWhile (!isExponentMark ·)
  decide (whole ≠ []) && whole.all isDigit && decide (whole.head? = some '0'.toNat → whole.length = 1) &&
    (decide (places = []) || decide (places.tail ≠ []) && places.tail.all isDigit) &&
    (decide (exponent = []) || (exponentValue exponent.tail).isSome)

/-! ## Tokens -/

def literals : List (Text × JsonAtom) :=
  [(codeUnits "true", .bool true), (codeUnits "false", .bool false), (codeUnits "null", .null)]

/-- The first token of a text that does not begin with white space, and what follows it. -/
def nextToken (unit : ℕ) (rest : Text) : Option (JsonToken × Text) :=
  if unit = '"'.toNat then (readString rest).map fun read => (.string read.1, read.2)
  else
    match markOf unit with
    | some m => some (.mark m, rest)
    | none =>
        if isDigit unit = true ∨ unit = '-'.toNat then
          let literal := (unit :: rest).takeWhile isNumberUnit
          if isJsonNumber literal then
            some (.atom (.number (signedValue literal)), (unit :: rest).dropWhile isNumberUnit)
          else none
        else
          literals.findSome? fun (word, a) =>
            if word.isPrefixOf (unit :: rest) then some (.atom a, (unit :: rest).drop word.length) else none

/-- The tokens of a text; every token has a unit of the fuel. -/
def lex : ℕ → Text → Option (List JsonToken)
  | 0, _ => none
  | fuel + 1, text =>
      match text.dropWhile isJsonSpace with
      | [] => some []
      | unit :: rest => do
          let (tok, rest) ← nextToken unit rest
          let toks ← lex fuel rest
          some (tok :: toks)

/-- `JSON.parse`, without its errors. -/
def jsonParse (text : Text) : Option JsonTree := do
  let toks ← lex (text.length + 1) text
  let v ← parseTokens toks
  some (lastWins v)

/-! ## Spellings -/

/-- The texts of a string, between its quotes. -/
inductive StringSpelling : Text → Text → Prop where
  | nil : StringSpelling [] []
  | unit {unit : ℕ} {s body : Text} (hlow : 0x20 ≤ unit) (hquote : unit ≠ 0x22) (hbackslash : unit ≠ 0x5C)
      (h : StringSpelling s body) : StringSpelling (unit :: s) (unit :: body)
  | simple {letter unit : ℕ} {s body : Text} (hletter : simpleEscape letter = some unit) (h : StringSpelling s body) :
      StringSpelling (unit :: s) (0x5C :: letter :: body)
  | code {a b c d unit : ℕ} {s body : Text} (hcode : radixValue 16 [a, b, c, d] = some unit)
      (h : StringSpelling s body) :
      StringSpelling (unit :: s) (0x5C :: 0x75 :: a :: b :: c :: d :: body)

/-- The texts of a token. -/
def TokenSpelling : JsonToken → Text → Prop
  | .mark m, text => text = [markUnit m]
  | .string s, text => ∃ body, StringSpelling s body ∧ text = 0x22 :: (body ++ [0x22])
  | .atom (.number n), text => isJsonNumber text = true ∧ signedValue text = n
  | .atom a, text => (text, a) ∈ literals

/-- The texts of tokens, with any white space around them. -/
inductive Spelling : List JsonToken → Text → Prop where
  | nil {space : Text} (hspace : ∀ unit ∈ space, isJsonSpace unit = true) : Spelling [] space
  | cons {space spelled text : Text} {tok : JsonToken} {toks : List JsonToken}
      (hspace : ∀ unit ∈ space, isJsonSpace unit = true) (htok : TokenSpelling tok spelled) (h : Spelling toks text) :
      Spelling (tok :: toks) (space ++ (spelled ++ text))

/-! ## Spellings are read -/

theorem readString_unit {unit : ℕ} (hlow : 0x20 ≤ unit) (hquote : unit ≠ 0x22) (hbackslash : unit ≠ 0x5C)
    (rest : Text) :
    readString (unit :: rest) = (readString rest).map fun read => (unit :: read.1, read.2) := by
  rw [readString.eq_def]
  split
  · rename_i heq
    cases heq
  · rename_i heq
    exact absurd (List.cons.inj heq).1 hquote
  · rename_i heq
    exact absurd (List.cons.inj heq).1 hbackslash
  · rename_i heq
    exact absurd (List.cons.inj heq).1 hbackslash
  · rename_i heq
    obtain ⟨rfl, rfl⟩ := List.cons.inj heq
    exact if_neg (Nat.not_lt.mpr hlow)

theorem simpleEscape_ne {letter unit : ℕ} (h : simpleEscape letter = some unit) : letter ≠ 0x75 := by
  rintro rfl
  cases h

theorem readString_spelling {s body : Text} (h : StringSpelling s body) (rest : Text) :
    readString (body ++ 0x22 :: rest) = some (s, rest) := by
  induction h with
  | nil => rfl
  | unit hlow hquote hbackslash _ ih =>
      rw [List.cons_append, readString_unit hlow hquote hbackslash, ih]
      rfl
  | simple hletter _ ih =>
      rw [List.cons_append, List.cons_append,
        readString.eq_4 _ _ (fun _ _ _ _ _ heq => absurd heq (simpleEscape_ne hletter)),
        hletter, ih]
      rfl
  | code hcode _ ih =>
      rw [List.cons_append, List.cons_append, List.cons_append, List.cons_append, List.cons_append, List.cons_append,
        readString, hcode, ih]
      rfl

theorem isNumberUnit_of_isDigit {unit : ℕ} (h : isDigit unit = true) : isNumberUnit unit = true := by
  unfold isNumberUnit
  rw [h]
  rfl

theorem exponentUnits {text : Text} (h : (exponentValue text).isSome = true) :
    ∀ unit ∈ text, isNumberUnit unit = true := by
  unfold exponentValue at h
  dsimp only at h
  have hdigits : (splitSign text).2 ≠ [] ∧ (splitSign text).2.all isDigit = true := by
    by_contra hnot
    rw [if_neg hnot] at h
    cases h
  have hall : ∀ unit ∈ (splitSign text).2, isDigit unit = true := List.all_eq_true.mp hdigits.2
  cases text with
  | nil => exact nofun
  | cons first rest =>
      unfold splitSign at hall
      dsimp only at hall
      split_ifs at hall with hminus hplus
      · exact List.forall_mem_cons.mpr ⟨hminus ▸ rfl, fun unit hunit => isNumberUnit_of_isDigit (hall unit hunit)⟩
      · exact List.forall_mem_cons.mpr ⟨hplus ▸ rfl, fun unit hunit => isNumberUnit_of_isDigit (hall unit hunit)⟩
      · exact fun unit hunit => isNumberUnit_of_isDigit (hall unit hunit)

/-- What is left of a text begins with a unit that stops it. -/
theorem head_of_dropWhile {p : ℕ → Bool} {text rest : Text} {first : ℕ} (h : text.dropWhile p = first :: rest) :
    p first = false := by
  have hhead := List.head?_dropWhile_not p text
  rwa [h] at hhead

/-- A number has a digit or a sign first, and nothing that is not in numbers. -/
theorem numberUnits {literal : Text} (h : isJsonNumber literal = true) :
    (∃ first rest, literal = first :: rest ∧ (isDigit first = true ∨ first = '-'.toNat)) ∧
      ∀ unit ∈ literal, isNumberUnit unit = true := by
  unfold isJsonNumber at h
  dsimp only at h
  generalize hdigits : (if literal.head? = some '-'.toNat then literal.tail else literal) = digits at h
  simp only [Bool.and_eq_true, Bool.or_eq_true, decide_eq_true_eq, List.all_eq_true] at h
  obtain ⟨⟨⟨⟨hne, hwhole⟩, -⟩, hplaces⟩, hexponent⟩ := h
  have hunits : ∀ unit ∈ digits, isNumberUnit unit = true := by
    intro unit hunit
    rw [← List.takeWhile_append_dropWhile (p := (!isExponentMark ·)) (l := digits), List.mem_append] at hunit
    rcases hunit with hunit | hunit
    · rw [← List.takeWhile_append_dropWhile (p := (· ≠ '.'.toNat)) (l := digits.takeWhile (!isExponentMark ·)),
        List.mem_append] at hunit
      rcases hunit with hunit | hunit
      · exact isNumberUnit_of_isDigit (hwhole unit hunit)
      · obtain ⟨first, rest, hrest⟩ := List.exists_cons_of_ne_nil (List.ne_nil_of_mem hunit)
        rw [hrest] at hunit hplaces
        obtain rfl : first = '.'.toNat := by simpa using head_of_dropWhile hrest
        rcases List.mem_cons.mp hunit with rfl | hunit
        · rfl
        · exact isNumberUnit_of_isDigit ((hplaces.resolve_left (List.cons_ne_nil _ _)).2 unit hunit)
    · obtain ⟨first, rest, hrest⟩ := List.exists_cons_of_ne_nil (List.ne_nil_of_mem hunit)
      rw [hrest] at hunit hexponent
      have hmark : isExponentMark first = true := by simpa using head_of_dropWhile hrest
      rcases List.mem_cons.mp hunit with rfl | hunit
      · unfold isNumberUnit
        rw [hmark, Bool.or_true]
      · exact exponentUnits (hexponent.resolve_left (List.cons_ne_nil _ _)) unit hunit
  by_cases hminus : literal.head? = some '-'.toNat
  · obtain ⟨rest, rfl⟩ : ∃ rest, literal = '-'.toNat :: rest := by
      cases literal with
      | nil => cases hminus
      | cons first rest => exact ⟨rest, congrArg (· :: rest) (Option.some.inj hminus)⟩
    rw [if_pos hminus] at hdigits
    obtain rfl : rest = digits := hdigits
    exact ⟨⟨_, _, rfl, Or.inr rfl⟩, List.forall_mem_cons.mpr ⟨rfl, hunits⟩⟩
  · rw [if_neg hminus] at hdigits
    rw [hdigits]
    refine ⟨?_, hunits⟩
    cases digits with
    | nil => exact absurd rfl hne
    | cons first rest =>
        refine ⟨first, rest, rfl, Or.inl (hwhole first ?_)⟩
        rw [List.takeWhile_cons] at hne ⊢
        split_ifs at hne ⊢ with hmark
        · rw [List.takeWhile_cons] at hne ⊢
          split_ifs at hne ⊢ with hdot
          · exact List.mem_cons_self
          · exact absurd rfl hne
        · exact absurd rfl hne

theorem markOf_markUnit (m : Mark) : markOf (markUnit m) = some m := by
  cases m <;> rfl

theorem nextToken_mark (m : Mark) (rest : Text) : nextToken (markUnit m) rest = some (.mark m, rest) := by
  unfold nextToken
  rw [if_neg (by cases m <;> decide), markOf_markUnit]

theorem nextToken_string {s body : Text} (h : StringSpelling s body) (rest : Text) :
    nextToken 0x22 (body ++ 0x22 :: rest) = some (.string s, rest) := by
  unfold nextToken
  rw [if_pos (by decide), readString_spelling h]
  rfl

theorem nextToken_literal {word : Text} {a : JsonAtom} (h : (word, a) ∈ literals) (rest : Text) :
    ∃ unit tail, word = unit :: tail ∧ nextToken unit (tail ++ rest) = some (.atom a, rest) := by
  have hliterals : literals = [([116, 114, 117, 101], .bool true), ([102, 97, 108, 115, 101], .bool false),
      ([110, 117, 108, 108], .null)] := by
    decide
  rw [hliterals] at h
  rcases List.mem_cons.mp h with heq | h
  · obtain ⟨rfl, rfl⟩ := Prod.mk.inj heq
    refine ⟨_, _, rfl, ?_⟩
    unfold nextToken
    rw [hliterals, if_neg (by decide)]
    rfl
  · rcases List.mem_cons.mp h with heq | h
    · obtain ⟨rfl, rfl⟩ := Prod.mk.inj heq
      refine ⟨_, _, rfl, ?_⟩
      unfold nextToken
      rw [hliterals, if_neg (by decide)]
      rfl
    · obtain ⟨rfl, rfl⟩ := Prod.mk.inj (List.mem_singleton.mp h)
      refine ⟨_, _, rfl, ?_⟩
      unfold nextToken
      rw [hliterals, if_neg (by decide)]
      rfl

theorem nextToken_number {literal : Text} (h : isJsonNumber literal = true) {rest : Text}
    (hrest : ∀ unit ∈ rest.head?, isNumberUnit unit = false) : ∃ unit tail, literal = unit :: tail ∧
      (isDigit unit = true ∨ unit = '-'.toNat) ∧
      nextToken unit (tail ++ rest) = some (.atom (.number (signedValue literal)), rest) := by
  obtain ⟨⟨first, tail, rfl, hfirst⟩, hunits⟩ := numberUnits h
  refine ⟨first, tail, rfl, hfirst, ?_⟩
  have hstart : first ≠ '"'.toNat ∧ markOf first = none := by
    rcases hfirst with hdigit | rfl
    · obtain ⟨hlow, hhigh⟩ := isDigit_iff.mp hdigit
      interval_cases first <;> exact ⟨by decide, rfl⟩
    · exact ⟨by decide, rfl⟩
  have hstop : rest.takeWhile isNumberUnit = [] ∧ rest.dropWhile isNumberUnit = rest := by
    cases rest with
    | nil => exact ⟨rfl, rfl⟩
    | cons unit rest =>
        have hunit : ¬isNumberUnit unit = true := by
          rw [hrest unit rfl]
          exact Bool.false_ne_true
        exact ⟨List.takeWhile_cons_of_neg hunit, List.dropWhile_cons_of_neg hunit⟩
  have htake : (first :: (tail ++ rest)).takeWhile isNumberUnit = first :: tail := by
    rw [← List.cons_append, List.takeWhile_append_of_pos hunits, hstop.1, List.append_nil]
  have hdrop : (first :: (tail ++ rest)).dropWhile isNumberUnit = rest := by
    rw [← List.cons_append, List.dropWhile_append_of_pos hunits, hstop.2]
  unfold nextToken
  rw [if_neg hstart.1, hstart.2]
  dsimp only
  rw [if_pos hfirst, htake, hdrop, if_pos h]

theorem not_space_of_markUnit (m : Mark) : isJsonSpace (markUnit m) = false ∧ isNumberUnit (markUnit m) = false := by
  cases m <;> exact ⟨rfl, rfl⟩

/-- Where a token is spelled, it is the next one. -/
theorem nextToken_spelling {tok : JsonToken} {spelled rest : Text} (h : TokenSpelling tok spelled)
    (hrest : ∀ n, tok = .atom (.number n) → ∀ unit ∈ rest.head?, isNumberUnit unit = false) : ∃ unit tail,
      spelled = unit :: tail ∧ isJsonSpace unit = false ∧ nextToken unit (tail ++ rest) = some (tok, rest) := by
  have hliteral {a : JsonAtom} (h : (spelled, a) ∈ literals) : ∃ unit tail, spelled = unit :: tail ∧
      isJsonSpace unit = false ∧ nextToken unit (tail ++ rest) = some (.atom a, rest) := by
    obtain ⟨unit, tail, hword, hnext⟩ := nextToken_literal h rest
    refine ⟨unit, tail, hword, ?_, hnext⟩
    have hheads : ∀ entry ∈ literals, entry.1.head?.all (!isJsonSpace ·) = true := by decide
    have hhead := hheads _ h
    rw [hword] at hhead
    simpa using hhead
  match tok, h with
  | .mark m, h =>
      exact ⟨markUnit m, [], h, (not_space_of_markUnit m).1, nextToken_mark m rest⟩
  | .string s, h =>
      obtain ⟨body, hbody, rfl⟩ := h
      refine ⟨0x22, body ++ [0x22], rfl, rfl, ?_⟩
      rw [List.append_assoc]
      exact nextToken_string hbody rest
  | .atom (.number n), h =>
      obtain ⟨unit, tail, hspelled, hunit, hnext⟩ := nextToken_number h.1 (hrest n rfl)
      refine ⟨unit, tail, hspelled, ?_, h.2 ▸ hnext⟩
      rcases hunit with hdigit | rfl
      · obtain ⟨hlow, hhigh⟩ := isDigit_iff.mp hdigit
        interval_cases unit <;> rfl
      · rfl
  | .atom .null, h => exact hliteral h
  | .atom (.bool b), h => exact hliteral h

theorem dropWhile_space {space text : Text} (hspace : ∀ unit ∈ space, isJsonSpace unit = true)
    (htext : ∀ unit ∈ text.head?, isJsonSpace unit = false) : (space ++ text).dropWhile isJsonSpace = text := by
  rw [List.dropWhile_append_of_pos hspace]
  cases text with
  | nil => rfl
  | cons unit text =>
      refine List.dropWhile_cons_of_neg ?_
      rw [htext unit rfl]
      exact Bool.false_ne_true

theorem not_number_of_space {unit : ℕ} (h : isJsonSpace unit = true) : isNumberUnit unit = false := by
  unfold isJsonSpace at h
  simp only [Bool.or_eq_true, decide_eq_true_eq] at h
  rcases h with ((rfl | rfl) | rfl) | rfl <;> rfl

/-- Behind a token that is followed by a mark or by nothing there is no unit of a number. -/
theorem Spelling.head_not_number {toks : List JsonToken} {text : Text} (h : Spelling toks text)
    (hmark : ∀ tok ∈ toks.head?, ∃ m, tok = .mark m) : ∀ unit ∈ text.head?, isNumberUnit unit = false := by
  intro unit hunit
  cases h with
  | nil hspace => exact not_number_of_space (hspace unit (List.mem_of_head? hunit))
  | @cons space spelled text tok toks hspace htok _ =>
      obtain ⟨m, rfl⟩ := hmark tok rfl
      obtain rfl : spelled = [markUnit m] := htok
      cases space with
      | nil => exact Option.some.inj hunit ▸ (not_space_of_markUnit m).2
      | cons first space => exact Option.some.inj hunit ▸ not_number_of_space (hspace first List.mem_cons_self)

/-- Every text of tokens of which no two atoms follow one another is cut into them. -/
theorem lex_spelling {toks : List JsonToken} {text : Text} (h : Spelling toks text) (hapart : toks.IsChain Apart)
    {fuel : ℕ} (hfuel : text.length < fuel) : lex fuel text = some toks := by
  induction h generalizing fuel with
  | nil hspace =>
      obtain ⟨fuel, rfl⟩ := Nat.exists_eq_succ_of_ne_zero (Nat.ne_zero_of_lt hfuel)
      rw [lex, List.dropWhile_eq_nil_iff.mpr hspace]
  | @cons space spelled text tok toks hspace htok htext ih =>
      obtain ⟨fuel, rfl⟩ := Nat.exists_eq_succ_of_ne_zero (Nat.ne_zero_of_lt hfuel)
      obtain ⟨hnext, hrest⟩ := List.isChain_cons.mp hapart
      obtain ⟨unit, tail, rfl, hunit, hread⟩ := @nextToken_spelling tok _ text htok (by
        rintro n rfl
        refine htext.head_not_number fun next hnext' => ?_
        have hbehind := hnext next hnext'
        cases next with
        | mark m => exact ⟨m, rfl⟩
        | string s => exact hbehind.elim
        | atom a => exact hbehind.elim)
      have hdrop : (space ++ (unit :: tail ++ text)).dropWhile isJsonSpace = unit :: (tail ++ text) :=
        dropWhile_space hspace fun other hother => Option.some.inj hother ▸ hunit
      rw [lex, hdrop]
      dsimp only
      rw [hread]
      have hlength : text.length < fuel := by
        rw [List.length_append, List.length_append, List.length_cons] at hfuel
        omega
      show (lex fuel text >>= fun toks => some (tok :: toks)) = _
      rw [ih hrest hlength]
      rfl

/-- Every spelling of a value parses to it, if no key is there twice. -/
theorem jsonParse_spelling {v : JsonTree} (hdistinct : Distinct v) {text : Text} (h : Spelling (tokens v) text) :
    jsonParse text = some v := by
  unfold jsonParse
  rw [lex_spelling h (isChain_tokens v) (Nat.lt_succ_self _)]
  show (parseTokens (tokens v) >>= fun v => some (lastWins v)) = _
  rw [parseTokens_eq_some.mpr rfl]
  exact congrArg some (lastWins_of_distinct v hdistinct)

theorem jsonParse_eq_some {text : Text} {v : JsonTree} : jsonParse text = some v ↔
    ∃ w, lex (text.length + 1) text = some (tokens w) ∧ v = lastWins w := by
  unfold jsonParse
  constructor
  · intro h
    obtain ⟨toks, htoks, h⟩ := Option.bind_eq_some_iff.mp h
    obtain ⟨w, hw, h⟩ := Option.bind_eq_some_iff.mp h
    exact ⟨w, parseTokens_eq_some.mp hw ▸ htoks, (Option.some.inj h).symm⟩
  · rintro ⟨w, htoks, rfl⟩
    rw [htoks]
    show (parseTokens (tokens w) >>= fun v => some (lastWins v)) = _
    rw [parseTokens_eq_some.mpr rfl]
    rfl

/-! ## What follows a spelling -/

theorem Spelling.ne_nil {tok : JsonToken} {toks : List JsonToken} {text : Text} (h : Spelling (tok :: toks) text) :
    text ≠ [] := by
  cases h with
  | cons hspace htok htext =>
      obtain ⟨unit, tail, rfl, -, -⟩ := @nextToken_spelling tok _ [] htok nofun
      exact List.append_ne_nil_of_right_ne_nil _ (List.cons_ne_nil _ _)

/-- Tokens that end with a mark are the first ones, whatever follows their text. -/
theorem lex_append {toks : List JsonToken} {text : Text} (h : Spelling toks text) (hapart : toks.IsChain Apart)
    {front : List JsonToken} {m : Mark} (hlast : toks = front ++ [.mark m]) {rest : Text} {fuel : ℕ}
    {found : List JsonToken} (hfound : lex fuel (text ++ rest) = some found) : ∃ more, found = toks ++ more := by
  induction h generalizing front fuel found with
  | nil hspace => exact absurd hlast.symm (List.append_ne_nil_of_right_ne_nil _ (List.cons_ne_nil _ _))
  | @cons space spelled text tok toks hspace htok htext ih =>
      obtain ⟨hnext, hrest⟩ := List.isChain_cons.mp hapart
      have hbehind : ∀ n, tok = .atom (.number n) → ∀ unit ∈ (text ++ rest).head?, isNumberUnit unit = false := by
        rintro n rfl unit hunit
        cases toks with
        | nil =>
            have hsingle := congrArg List.getLast? hlast
            rw [List.getLast?_singleton, List.getLast?_concat] at hsingle
            cases hsingle
        | cons next toks =>
            rw [List.head?_append_of_ne_nil _ htext.ne_nil] at hunit
            refine htext.head_not_number (fun other hother => ?_) unit hunit
            have hother' := hnext other hother
            cases other with
            | mark m => exact ⟨m, rfl⟩
            | string s => exact hother'.elim
            | atom a => exact hother'.elim
      obtain ⟨unit, tail, rfl, hunit, hread⟩ := nextToken_spelling htok hbehind
      have hdrop : (space ++ (unit :: tail ++ text) ++ rest).dropWhile isJsonSpace = unit ::
          (tail ++ (text ++ rest)) := by
        rw [List.append_assoc, List.append_assoc, List.cons_append]
        exact dropWhile_space hspace fun other hother => Option.some.inj hother ▸ hunit
      cases fuel with
      | zero => cases hfound
      | succ fuel =>
          rw [lex, hdrop] at hfound
          dsimp only at hfound
          rw [hread] at hfound
          obtain ⟨later, hlater, hfound⟩ : ∃ later, lex fuel (text ++ rest) = some later ∧
              some (tok :: later) = some found :=
            Option.bind_eq_some_iff.mp hfound
          cases hfound
          cases front with
          | nil =>
              obtain ⟨-, rfl⟩ := List.cons.inj hlast
              exact ⟨later, rfl⟩
          | cons first front =>
              obtain ⟨more, rfl⟩ := ih hrest (List.cons.inj hlast).2 hlater
              exact ⟨more, rfl⟩

/-- A text of tokens that end with a mark ends with it, but for white space. -/
theorem Spelling.cut_last {front : List JsonToken} {m : Mark} {text : Text} (h : Spelling (front ++ [.mark m]) text) :
    ∃ middle space, text = middle ++ markUnit m :: space ∧ (∀ unit ∈ space, isJsonSpace unit = true) ∧
      Spelling (front ++ [.mark m]) (middle ++ [markUnit m]) := by
  induction front generalizing text with
  | nil =>
      cases h with
      | @cons space spelled text tok toks hspace htok htext =>
          obtain rfl : spelled = [markUnit m] := htok
          cases htext with
          | nil hafter =>
              refine ⟨space, _, rfl, hafter, ?_⟩
              have hmark : TokenSpelling (.mark m) [markUnit m] := rfl
              have hnone : Spelling [] [] := Spelling.nil fun unit hunit => absurd hunit List.not_mem_nil
              have hwhole := Spelling.cons hspace hmark hnone
              rwa [List.append_nil] at hwhole
  | cons tok front ih =>
      cases h with
      | @cons space spelled text tok toks hspace htok htext =>
          obtain ⟨middle, after, rfl, hafter, hspelling⟩ := ih htext
          refine ⟨space ++ (spelled ++ middle), after, ?_, hafter, ?_⟩
          · simp only [List.append_assoc]
          · have hwhole := Spelling.cons hspace htok hspelling
            simpa only [List.append_assoc, List.cons_append] using hwhole

/-! ## What is read was spelled -/

theorem readString_eq_some {rest s after : Text} (h : readString rest = some (s, after)) : ∃ body,
    StringSpelling s body ∧ rest = body ++ 0x22 :: after := by
  fun_induction readString rest generalizing s with
  | case1 => cases h
  | case2 rest =>
      cases h
      exact ⟨[], .nil, rfl⟩
  | case3 rest a b c d unit hcode ih =>
      obtain ⟨read, hread, h⟩ := Option.map_eq_some_iff.mp h
      cases h
      obtain ⟨body, hbody, rfl⟩ := ih hread
      exact ⟨_, .code hcode hbody, rfl⟩
  | case4 => cases h
  | case5 letter rest _ unit hsimple ih =>
      obtain ⟨read, hread, h⟩ := Option.map_eq_some_iff.mp h
      cases h
      obtain ⟨body, hbody, rfl⟩ := ih hread
      exact ⟨_, .simple hsimple hbody, rfl⟩
  | case6 => cases h
  | case7 => cases h
  | case8 unit rest hquote _ hbackslash hlow ih =>
      obtain ⟨read, hread, h⟩ := Option.map_eq_some_iff.mp h
      cases h
      obtain ⟨body, hbody, rfl⟩ := ih hread
      have hunit : unit ≠ 0x5C := by
        rintro rfl
        obtain ⟨letter, more, hmore⟩ := List.exists_cons_of_ne_nil
          (List.append_ne_nil_of_right_ne_nil body (List.cons_ne_nil 0x22 read.2))
        exact hbackslash letter more rfl hmore
      exact ⟨_, .unit (Nat.not_lt.mp hlow) hquote hunit hbody, rfl⟩

/-- A text without tokens is white space. -/
theorem space_of_lex_nil {fuel : ℕ} {text : Text} (h : lex fuel text = some []) :
    ∀ unit ∈ text, isJsonSpace unit = true := by
  cases fuel with
  | zero => cases h
  | succ fuel =>
      rw [lex] at h
      split at h
      · rename_i hnil
        exact List.dropWhile_eq_nil_iff.mp hnil
      · obtain ⟨read, -, h⟩ := Option.bind_eq_some_iff.mp h
        obtain ⟨toks, -, h⟩ := Option.bind_eq_some_iff.mp h
        cases h

end DealFlow360
