import DealFlow360.Errors
import DealFlow360.Numerals
import DealFlow360.Paths

/-!
# Storage keys

`storage.keys.ts`: the check of a key, and the path that it has under the
storage root.

`KeyForm` says which texts are keys: they match the source's pattern and have
no two dots side by side. `assertStorageKey_eq_ok` says that the check accepts
exactly these after trimming, and `KeyForm.resolveStoragePath_eq` that their
paths lie strictly inside the root.
-/

namespace DealFlow360.Storage

open Events (Text trimText isSpaceUnit)
open Paths

def isLetter (unit : ℕ) : Bool :=
  ('A'.toNat ≤ unit && unit ≤ 'Z'.toNat) || ('a'.toNat ≤ unit && unit ≤ 'z'.toNat)

def isAlnum (unit : ℕ) : Bool := isLetter unit || isDigit unit

/-- Letters, digits, points, underscores, slashes and hyphens. -/
def isKeyUnit (unit : ℕ) : Bool :=
  isAlnum unit || unit = '.'.toNat || unit = '_'.toNat || unit = '/'.toNat || unit = '-'.toNat

/-- `KEY_PATTERN`. -/
def matchesKeyPattern (key : Text) : Bool :=
  match key with
  | [] => false
  | first :: rest => isAlnum first && rest.all isKeyUnit && rest.length ≤ 510

/-- `text.includes('..')`. -/
def includesDotDot (text : Text) : Bool := decide (dotDot <:+: text)

def invalidKey (message : String) : ValidationError :=
  { message := "Invalid storage key", issues := [{ path := "storageKey", message, code := "custom" }] }

def assertStorageKey (key : Text) : Except ValidationError Text :=
  let trimmed := trimText key
  if trimmed = [] ∨ includesDotDot trimmed = true ∨ trimmed.head? = some '/'.toNat ∨
    trimmed.head? = some '\\'.toNat then
    .error (invalidKey "Storage key must be a relative path without traversal")
  else if trimmed.head? = some '/'.toNat ∨ trimmed.head?.any isLetter = true ∧ trimmed[1]? = some ':'.toNat ∨
      matchesKeyPattern trimmed = false then
    .error (invalidKey "Storage key must be a relative path without traversal")
  else .ok (trimmed.map fun unit => if unit = '\\'.toNat then '/'.toNat else unit)

/-- The root is resolved; its text ends in a separator if it is the root of the file system. -/
def resolveStoragePath (root : Path) (key : Text) : Except ValidationError Path := do
  let safeKey ← assertStorageKey key
  let resolved := resolve root (safeKey.splitOn '/'.toNat)
  if resolved ≠ root ∧ ¬root <+: resolved then
    .error (invalidKey "Storage key must stay inside the storage root")
  else .ok resolved

/-! ## What is accepted -/

/-- What a key is like once it is accepted. -/
structure KeyForm (key : Text) : Prop where
  pattern : matchesKeyPattern key = true
  relative : ¬dotDot <:+: key

theorem isKeyUnit_of_isAlnum {unit : ℕ} (h : isAlnum unit = true) : isKeyUnit unit = true := by
  unfold isKeyUnit
  rw [h]
  rfl

theorem isKeyUnit_iff {unit : ℕ} : isKeyUnit unit = true ↔
    65 ≤ unit ∧ unit ≤ 90 ∨ 97 ≤ unit ∧ unit ≤ 122 ∨ 48 ≤ unit ∧ unit ≤ 57 ∨
      unit = 46 ∨ unit = 95 ∨ unit = 47 ∨ unit = 45 := by
  unfold isKeyUnit isAlnum isLetter
  simp only [Bool.or_eq_true, Bool.and_eq_true, decide_eq_true_eq, isDigit_iff]
  show (((((65 ≤ unit ∧ unit ≤ 90 ∨ 97 ≤ unit ∧ unit ≤ 122) ∨ 48 ≤ unit ∧ unit ≤ 57) ∨ unit = 46) ∨ unit = 95) ∨
    unit = 47) ∨ unit = 45 ↔ _
  omega

theorem matchesKeyPattern_cons {first : ℕ} {rest : Text} : matchesKeyPattern (first :: rest) = true ↔
    isAlnum first = true ∧ (∀ unit ∈ rest, isKeyUnit unit = true) ∧ rest.length ≤ 510 := by
  unfold matchesKeyPattern
  rw [Bool.and_eq_true, Bool.and_eq_true, List.all_eq_true, decide_eq_true_eq, and_assoc]

theorem KeyForm.units {key : Text} (h : KeyForm key) : ∀ unit ∈ key, isKeyUnit unit = true := by
  cases key with
  | nil => exact fun _ hunit => absurd hunit List.not_mem_nil
  | cons first rest =>
      obtain ⟨hfirst, hrest, -⟩ := matchesKeyPattern_cons.mp h.pattern
      exact List.forall_mem_cons.mpr ⟨isKeyUnit_of_isAlnum hfirst, hrest⟩

theorem not_space_of_isKeyUnit {unit : ℕ} (h : isKeyUnit unit = true) : isSpaceUnit unit = false := by
  rw [isKeyUnit_iff] at h
  unfold isSpaceUnit
  simp only [List.mem_cons, List.not_mem_nil, or_false, Bool.or_eq_false_iff, decide_eq_false_iff_not]
  omega

theorem KeyForm.trimText_eq {key : Text} (h : KeyForm key) : trimText key = key :=
  Events.trimText_of_inked fun unit hunit => not_space_of_isKeyUnit (h.units unit hunit)

/-- A key is accepted exactly if its trimmed text is of the form. -/
theorem assertStorageKey_eq_ok {key safe : Text} :
    assertStorageKey key = .ok safe ↔ KeyForm (trimText key) ∧ safe = trimText key := by
  unfold assertStorageKey
  generalize trimText key = trimmed
  dsimp only
  have hform (hpattern : matchesKeyPattern trimmed = true) : trimmed ≠ [] ∧ trimmed.head? ≠ some '/'.toNat ∧
      trimmed.head? ≠ some '\\'.toNat ∧ trimmed[1]? ≠ some ':'.toNat ∧
        (trimmed.map fun unit => if unit = '\\'.toNat then '/'.toNat else unit) = trimmed := by
    cases trimmed with
    | nil => cases hpattern
    | cons first rest =>
        obtain ⟨hfirst, hrest, -⟩ := matchesKeyPattern_cons.mp hpattern
        have hunits : ∀ unit ∈ first :: rest, isKeyUnit unit = true :=
          List.forall_mem_cons.mpr ⟨isKeyUnit_of_isAlnum hfirst, hrest⟩
        have hslash : first ≠ '/'.toNat := fun heq => by
          rw [heq] at hfirst
          cases hfirst
        have hback : ∀ unit ∈ first :: rest, unit ≠ '\\'.toNat := fun unit hunit heq => by
          have hkey := hunits unit hunit
          rw [heq] at hkey
          cases hkey
        refine ⟨List.cons_ne_nil _ _, fun h => hslash (Option.some.inj h), fun h => ?_, fun h => ?_, ?_⟩
        · exact hback first List.mem_cons_self (Option.some.inj h)
        · have hmem : ':'.toNat ∈ first :: rest := List.mem_of_getElem? h
          have hkey := hunits _ hmem
          cases hkey
        · exact (List.map_congr_left fun unit hunit => if_neg (hback unit hunit)).trans (List.map_id' _)
  constructor
  · intro h
    split_ifs at h with hfirst hsecond
    simp only [not_or, Bool.not_eq_true, Bool.not_eq_false] at hfirst hsecond
    have hpattern := hsecond.2.2
    refine ⟨⟨hpattern, ?_⟩, (Except.ok.inj h).symm.trans (hform hpattern).2.2.2.2⟩
    exact of_decide_eq_false hfirst.2.1
  · rintro ⟨hkey, rfl⟩
    obtain ⟨hnil, hslash, hback, hcolon, hmap⟩ := hform hkey.pattern
    have hdots : includesDotDot safe = false := decide_eq_false hkey.relative
    rw [if_neg, if_neg, hmap]
    · rintro (h | ⟨-, h⟩ | h)
      · exact hslash h
      · exact hcolon h
      · rw [hkey.pattern] at h
        cases h
    · rintro (h | h | h | h)
      · exact hnil h
      · rw [hdots] at h
        cases h
      · exact hslash h
      · exact hback h

theorem KeyForm.assertStorageKey_eq {key : Text} (h : KeyForm key) : assertStorageKey key = .ok key := by
  rw [assertStorageKey_eq_ok, h.trimText_eq]
  exact ⟨h, rfl⟩

/-- A key leads to a path strictly inside the root. -/
theorem KeyForm.resolveStoragePath_eq {key : Text} (h : KeyForm key) (root : Path) :
    ∃ path, resolveStoragePath root key = .ok path ∧ root <+: path ∧ path ≠ root := by
  have hnone : dotDot ∉ key.splitOn '/'.toNat := fun hmem => h.relative (infix_of_mem_splitOn hmem)
  have hresolve := resolve_eq hnone root
  have hinside : root <+: resolve root (key.splitOn '/'.toNat) := by
    rw [hresolve]
    exact List.prefix_append _ _
  refine ⟨resolve root (key.splitOn '/'.toNat), ?_, hinside, ?_⟩
  · unfold resolveStoragePath
    rw [h.assertStorageKey_eq]
    exact if_neg fun hout => hout.2 hinside
  · -- the first segment begins with a letter or a digit
    cases key with
    | nil => exact absurd h.pattern Bool.false_ne_true
    | cons first rest =>
        obtain ⟨hfirst, -⟩ := matchesKeyPattern_cons.mp h.pattern
        obtain ⟨segment, segments, hpieces⟩ := List.exists_cons_of_ne_nil (List.splitOn_ne_nil '/'.toNat rest)
        have hslash : ¬(first == '/'.toNat) = true := fun heq => by
          rw [beq_iff_eq.mp heq] at hfirst
          cases hfirst
        have hord : Ordinary (first :: segment) := by
          have hdot : first ≠ '.'.toNat := fun heq => by
            rw [heq] at hfirst
            cases hfirst
          have hdots : dot.head? = some '.'.toNat ∧ dotDot.head? = some '.'.toNat := by decide
          refine ⟨List.cons_ne_nil _ _, fun heq => hdot ?_, fun heq => hdot ?_⟩
          · exact Option.some.inj ((congrArg List.head? heq).trans hdots.1)
          · exact Option.some.inj ((congrArg List.head? heq).trans hdots.2)
        rw [hresolve, List.splitOn_cons_eq_if_modifyHead, if_neg hslash, hpieces, List.modifyHead_cons,
          List.filter_cons_of_pos (by simpa using hord)]
        intro hsame
        exact absurd (List.append_right_eq_self.mp hsame) (List.cons_ne_nil _ _)

end DealFlow360.Storage
