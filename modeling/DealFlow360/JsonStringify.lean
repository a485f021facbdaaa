import DealFlow360.JsonText
import DealFlow360.WellFormed

/-!
# JSON texts that are written

`JSON.stringify` of a value, whose numbers have given texts. What it writes is
a text of the value in one line, and no surrogate of it is alone.

- `spelling_jsonStringify`: what is written is a text of the value, so reading
  it gives the value back (`jsonParse_jsonStringify`);
- `jsonStringify_units`: no control character is in it, so it fits in a line of
  an event stream;
- `toWellFormed_jsonStringify`: lone surrogates are escaped, so encoding the
  text to bytes loses nothing.

The text of a number is a parameter, with its round trip as the one thing asked
of it.
-/

namespace DealFlow360

open Events (Text quotedUnit hexDigit isHighSurrogate isLowSurrogate toWellFormed toWellFormed_cons toWellFormed_append)
open JsonSyntax

/-! ## Strings -/

/-- `\uXXXX`. -/
def unicodeEscape (unit : ℕ) : Text :=
  [0x5C, 'u'.toNat, hexDigit (unit / 4096 % 16), hexDigit (unit / 256 % 16), hexDigit (unit / 16 % 16),
    hexDigit (unit % 16)]

/-- The code units of a string between its quotes; a surrogate without the other one is escaped. -/
def quotedText : Text → Text
  | [] => []
  | [unit] => if isHighSurrogate unit || isLowSurrogate unit then unicodeEscape unit else quotedUnit unit
  | unit :: next :: rest =>
      if isHighSurrogate unit && isLowSurrogate next then unit :: next :: quotedText rest
      else (if isHighSurrogate unit || isLowSurrogate unit then unicodeEscape unit else quotedUnit unit) ++
        quotedText (next :: rest)

theorem surrogate_bounds {unit : ℕ} (h : (isHighSurrogate unit || isLowSurrogate unit) = true) :
    0xD800 ≤ unit ∧ unit ≤ 0xDFFF := by
  unfold isHighSurrogate isLowSurrogate at h
  simp only [Bool.or_eq_true, Bool.and_eq_true, decide_eq_true_eq] at h
  omega

theorem digitValue_hexDigit {n : ℕ} (h : n < 16) : digitValue (hexDigit n) = some n := by
  interval_cases n <;> rfl

theorem radixValue_hex {unit : ℕ} (h : unit < 65536) : radixValue 16
    [hexDigit (unit / 4096 % 16), hexDigit (unit / 256 % 16), hexDigit (unit / 16 % 16), hexDigit (unit % 16)] =
      some unit := by
  have hmod (n : ℕ) : n % 16 < 16 := Nat.mod_lt _ (by decide)
  unfold radixValue
  rw [if_neg (List.cons_ne_nil _ _)]
  simp only [List.foldlM_cons, List.foldlM_nil, digitValue_hexDigit (hmod _), Option.bind_eq_bind, Option.bind_some,
    if_pos (hmod _), Option.pure_def, Option.some.injEq]
  omega

theorem StringSpelling.append {s s' body body' : Text} (h : StringSpelling s body) (h' : StringSpelling s' body') :
    StringSpelling (s ++ s') (body ++ body') := by
  induction h with
  | nil => exact h'
  | unit hlow hquote hbackslash _ ih => exact .unit hlow hquote hbackslash ih
  | simple hletter _ ih => exact .simple hletter ih
  | code hcode _ ih => exact .code hcode ih

theorem spelling_unicodeEscape {unit : ℕ} (h : unit < 65536) : StringSpelling [unit] (unicodeEscape unit) :=
  .code (radixValue_hex h) .nil

theorem spelling_quotedUnit (unit : ℕ) : StringSpelling [unit] (quotedUnit unit) := by
  unfold quotedUnit
  split_ifs with hmark hb hf hn hr ht hlow
  · rcases hmark with rfl | rfl
    · exact .simple rfl .nil
    · exact .simple rfl .nil
  · exact hb ▸ .simple rfl .nil
  · exact hf ▸ .simple rfl .nil
  · exact hn ▸ .simple rfl .nil
  · exact hr ▸ .simple rfl .nil
  · exact ht ▸ .simple rfl .nil
  · have hdigits : [hexDigit (unit / 4096 % 16), hexDigit (unit / 256 % 16), hexDigit (unit / 16 % 16),
      hexDigit (unit % 16)] =
        ['0'.toNat, '0'.toNat, hexDigit (unit / 16), hexDigit (unit % 16)] := by
      interval_cases unit <;> rfl
    exact .code (hdigits ▸ radixValue_hex (by omega)) .nil
  · obtain ⟨hquote, hbackslash⟩ := not_or.mp hmark
    exact .unit (Nat.not_lt.mp hlow) hquote hbackslash .nil

theorem spelling_quotedText (s : Text) : StringSpelling s (quotedText s) := by
  have hfirst (unit : ℕ) : StringSpelling [unit]
      (if isHighSurrogate unit || isLowSurrogate unit then unicodeEscape unit else quotedUnit unit) := by
    split_ifs with hsurrogate
    · exact spelling_unicodeEscape (Nat.lt_of_le_of_lt (surrogate_bounds hsurrogate).2 (by decide))
    · exact spelling_quotedUnit unit
  fun_induction quotedText s with
  | case1 => exact .nil
  | case2 unit hsurrogate =>
      have h := hfirst unit
      rwa [if_pos hsurrogate] at h
  | case3 unit hsurrogate =>
      have h := hfirst unit
      rwa [if_neg hsurrogate] at h
  | case4 unit next rest hpair ih =>
      rw [Bool.and_eq_true] at hpair
      have hhigh := surrogate_bounds (Bool.or_eq_true .. ▸ Or.inl hpair.1)
      have hlow := surrogate_bounds (Bool.or_eq_true .. ▸ Or.inr hpair.2)
      exact .unit (by omega) (by omega) (by omega) (.unit (by omega) (by omega) (by omega) ih)
  | case5 unit next rest hpair ih => exact (hfirst unit).append ih

/-! ## Values -/

section Stringify

variable (numberText : JsNumber → Text)

def tokenText : JsonToken → Text
  | .mark m => [markUnit m]
  | .string s => 0x22 :: (quotedText s ++ [0x22])
  | .atom .null => codeUnits "null"
  | .atom (.bool b) => codeUnits (if b then "true" else "false")
  | .atom (.number n) => numberText n

/-- `JSON.stringify`. -/
def jsonStringify (v : JsonTree) : Text := (tokens v).flatMap (tokenText numberText)

/-- A number is what its text is read as. -/
def ReadsBack (n : JsNumber) : Prop := isJsonNumber (numberText n) = true ∧ signedValue (numberText n) = n

/-- The numbers of a value have texts that they are read back from. -/
def NumbersRead (v : JsonTree) : Prop := ∀ n, Token.atom (.number n) ∈ tokens v → ReadsBack numberText n

variable {numberText}

theorem spelling_tokenText {tok : JsonToken} (h : ∀ n, tok = .atom (.number n) → ReadsBack numberText n) :
    TokenSpelling tok (tokenText numberText tok) := by
  cases tok with
  | mark m => exact rfl
  | string s => exact ⟨quotedText s, spelling_quotedText s, rfl⟩
  | atom a =>
      cases a with
      | null =>
          show (codeUnits "null", JsonAtom.null) ∈ literals
          decide
      | bool b =>
          show (codeUnits (if b then "true" else "false"), JsonAtom.bool b) ∈ literals
          cases b <;> decide
      | number n => exact h n rfl

/-- What is written is a text of the value. -/
theorem spelling_jsonStringify {v : JsonTree} (h : NumbersRead numberText v) :
    Spelling (tokens v) (jsonStringify numberText v) := by
  unfold NumbersRead at h
  unfold jsonStringify
  have hnil : ∀ unit ∈ ([] : Text), isJsonSpace unit = true := fun unit hunit => absurd hunit List.not_mem_nil
  generalize tokens v = toks at h ⊢
  induction toks with
  | nil => exact .nil hnil
  | cons tok toks ih =>
      have htok : TokenSpelling tok (tokenText numberText tok) :=
        spelling_tokenText fun n hn => h n (hn ▸ List.mem_cons_self)
      exact .cons hnil htok (ih fun n hn => h n (List.mem_cons_of_mem _ hn))

/-! ## One line -/

theorem hexDigit_units {n : ℕ} (h : n < 16) : 0x20 ≤ hexDigit n ∧ hexDigit n < 0xD800 := by
  interval_cases n <;> decide

theorem unicodeEscape_units (unit : ℕ) : ∀ other ∈ unicodeEscape unit, 0x20 ≤ other ∧ other < 0xD800 := by
  have hmod (n : ℕ) := hexDigit_units (Nat.mod_lt n (show 0 < 16 by decide))
  unfold unicodeEscape
  simp only [List.forall_mem_cons]
  exact ⟨by decide, by decide, hmod _, hmod _, hmod _, hmod _, fun _ h => absurd h List.not_mem_nil⟩

theorem quotedUnit_units (unit : ℕ) :
    (∀ other ∈ quotedUnit unit, 0x20 ≤ other ∧ other < 0xD800) ∨ quotedUnit unit = [unit] ∧ 0x20 ≤ unit := by
  unfold quotedUnit
  split_ifs with hmark hb hf hn hr ht hlow
  · left
    rcases hmark with rfl | rfl <;> decide
  · left
    decide
  · left
    decide
  · left
    decide
  · left
    decide
  · left
    decide
  · left
    interval_cases unit <;> decide
  · exact Or.inr ⟨rfl, Nat.not_lt.mp hlow⟩

theorem quotedText_units (s : Text) : ∀ unit ∈ quotedText s, 0x20 ≤ unit := by
  have hfirst (unit : ℕ) : ∀ other ∈ if isHighSurrogate unit || isLowSurrogate unit then
      unicodeEscape unit else quotedUnit unit,
      0x20 ≤ other := by
    split_ifs
    · exact fun other hother => (unicodeEscape_units unit other hother).1
    · rcases quotedUnit_units unit with hunits | ⟨hself, hlow⟩
      · exact fun other hother => (hunits other hother).1
      · rw [hself]
        exact List.forall_mem_singleton.mpr hlow
  fun_induction quotedText s with
  | case1 => exact fun unit hunit => absurd hunit List.not_mem_nil
  | case2 unit hsurrogate =>
      have h := hfirst unit
      rwa [if_pos hsurrogate] at h
  | case3 unit hsurrogate =>
      have h := hfirst unit
      rwa [if_neg hsurrogate] at h
  | case4 unit next rest hpair ih =>
      rw [Bool.and_eq_true] at hpair
      have hhigh := surrogate_bounds (Bool.or_eq_true .. ▸ Or.inl hpair.1)
      have hlow := surrogate_bounds (Bool.or_eq_true .. ▸ Or.inr hpair.2)
      exact List.forall_mem_cons.mpr ⟨by omega, List.forall_mem_cons.mpr ⟨by omega, ih⟩⟩
  | case5 unit next rest hpair ih => exact List.forall_mem_append.mpr ⟨hfirst unit, ih⟩

/-- No surrogate of a quoted text is alone. -/
theorem toWellFormed_quotedText (s rest : Text) :
    toWellFormed (quotedText s ++ 0x22 :: rest) = quotedText s ++ 0x22 :: toWellFormed rest := by
  have hfirst (unit : ℕ) (text : Text) : toWellFormed
      ((if isHighSurrogate unit || isLowSurrogate unit then unicodeEscape unit else quotedUnit unit) ++ text) =
        (if isHighSurrogate unit || isLowSurrogate unit then unicodeEscape unit else quotedUnit unit) ++
          toWellFormed text := by
    split_ifs with hsurrogate
    · exact toWellFormed_append (fun other hother => (unicodeEscape_units unit other hother).2) text
    · rcases quotedUnit_units unit with hunits | ⟨hself, -⟩
      · exact toWellFormed_append (fun other hother => (hunits other hother).2) text
      · rw [hself]
        exact Events.toWellFormed_cons_of_not (Bool.eq_false_iff.mpr hsurrogate) text
  fun_induction quotedText s with
  | case1 => exact toWellFormed_cons (by decide) rest
  | case2 unit hsurrogate =>
      have h := hfirst unit (0x22 :: rest)
      rwa [if_pos hsurrogate, toWellFormed_cons (by decide)] at h
  | case3 unit hsurrogate =>
      have h := hfirst unit (0x22 :: rest)
      rwa [if_neg hsurrogate, toWellFormed_cons (by decide)] at h
  | case4 unit next rest hpair ih =>
      rw [List.cons_append, List.cons_append, toWellFormed, if_pos hpair, ih]
      rfl
  | case5 unit next rest hpair ih => rw [List.append_assoc, hfirst, ih, List.append_assoc]

variable {numberText : JsNumber → Text}

theorem isNumberUnit_bounds {unit : ℕ} (h : isNumberUnit unit = true) : 0x20 ≤ unit ∧ unit < 0xD800 := by
  unfold isNumberUnit isExponentMark at h
  simp only [Bool.or_eq_true, decide_eq_true_eq] at h
  rcases h with (((hdigit | rfl) | rfl) | rfl) | rfl | rfl
  · have hbounds := isDigit_iff.mp hdigit
    omega
  all_goals decide

/-- What is written for a token that is no string. -/
theorem tokenText_bounds {tok : JsonToken} (h : ∀ n, tok = .atom (.number n) → ReadsBack numberText n)
    (hstring : ∀ s, tok ≠ .string s) : ∀ unit ∈ tokenText numberText tok, 0x20 ≤ unit ∧ unit < 0xD800 := by
  cases tok with
  | mark m =>
      refine List.forall_mem_singleton.mpr ?_
      cases m <;> decide
  | string s => exact absurd rfl (hstring s)
  | atom a =>
      cases a with
      | null =>
          show ∀ unit ∈ codeUnits "null", 0x20 ≤ unit ∧ unit < 0xD800
          decide
      | bool b =>
          show ∀ unit ∈ codeUnits (if b then "true" else "false"), 0x20 ≤ unit ∧ unit < 0xD800
          cases b <;> decide
      | number n => exact fun unit hunit => isNumberUnit_bounds ((numberUnits (h n rfl).1).2 unit hunit)

theorem tokenText_units {tok : JsonToken} (h : ∀ n, tok = .atom (.number n) → ReadsBack numberText n) :
    ∀ unit ∈ tokenText numberText tok, 0x20 ≤ unit := by
  by_cases hstring : ∃ s, tok = .string s
  · obtain ⟨s, rfl⟩ := hstring
    exact List.forall_mem_cons.mpr ⟨by decide, List.forall_mem_append.mpr ⟨quotedText_units s, by decide⟩⟩
  · exact fun unit hunit => (tokenText_bounds h (not_exists.mp hstring) unit hunit).1

theorem toWellFormed_tokenText {tok : JsonToken} (h : ∀ n, tok = .atom (.number n) → ReadsBack numberText n)
    (rest : Text) :
    toWellFormed (tokenText numberText tok ++ rest) = tokenText numberText tok ++ toWellFormed rest := by
  by_cases hstring : ∃ s, tok = .string s
  · obtain ⟨s, rfl⟩ := hstring
    show toWellFormed (0x22 :: (quotedText s ++ [0x22] ++ rest)) = 0x22 :: (quotedText s ++ [0x22] ++ toWellFormed rest)
    rw [toWellFormed_cons (by decide), List.append_assoc, List.singleton_append, toWellFormed_quotedText,
      List.append_assoc,
      List.singleton_append]
  · exact toWellFormed_append (fun unit hunit => (tokenText_bounds h (not_exists.mp hstring) unit hunit).2) rest

/-- A value is written in one line. -/
theorem jsonStringify_units {v : JsonTree} (h : NumbersRead numberText v) :
    ∀ unit ∈ jsonStringify numberText v, 0x20 ≤ unit := by
  intro unit hunit
  obtain ⟨tok, htok, hunit⟩ := List.mem_flatMap.mp hunit
  exact tokenText_units (fun n hn => h n (hn ▸ htok)) unit hunit

/-- What is written has no lone surrogates. -/
theorem toWellFormed_jsonStringify {v : JsonTree} (h : NumbersRead numberText v) (rest : Text) :
    toWellFormed (jsonStringify numberText v ++ rest) = jsonStringify numberText v ++ toWellFormed rest := by
  unfold NumbersRead at h
  unfold jsonStringify
  generalize tokens v = toks at h ⊢
  induction toks with
  | nil => rfl
  | cons tok toks ih =>
      have htok : ∀ n, tok = .atom (.number n) → ReadsBack numberText n := fun n hn => h n (hn ▸ List.mem_cons_self)
      rw [List.flatMap_cons, List.append_assoc, toWellFormed_tokenText htok,
        ih fun n hn => h n (List.mem_cons_of_mem _ hn), List.append_assoc]

/-- The text of an object is in braces. -/
theorem jsonStringify_object (members : List (Text × JsonTree)) : ∃ middle,
    jsonStringify numberText (.object members) = '{'.toNat :: (middle ++ ['}'.toNat]) := by
  obtain ⟨front, hfront⟩ := memberTokens_concat members
  refine ⟨front.flatMap (tokenText numberText), ?_⟩
  unfold jsonStringify
  rw [tokens, hfront, List.flatMap_cons, List.flatMap_append]
  rfl

/-- A value is read back from what is written. -/
theorem jsonParse_jsonStringify {v : JsonTree} (hdistinct : Distinct v) (h : NumbersRead numberText v) :
    jsonParse (jsonStringify numberText v) = some v :=
  jsonParse_spelling hdistinct (spelling_jsonStringify h)

end Stringify

end DealFlow360
