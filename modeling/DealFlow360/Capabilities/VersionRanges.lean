import DealFlow360.Capabilities.Semver
import Mathlib.Data.List.Lex
import Mathlib.Data.Prod.Lex
import Mathlib.Data.Sum.Order
import Mathlib.Order.Compare

/-!
# What a version range admits

`compareParsed` compares the places that versions have in one linear order,
unless two identifiers that are read as infinity meet: their difference is NaN.
A caret or tilde range ends before the next release, and so holds the
prereleases of that release, which do not agree with the bound.

A version's `Place` is in a lexicographic order in which a release comes after
its prereleases.

- `compares_compareParsed`: the source's comparison compares places, where it
  answers;
- `compareParsed_eq_iff`: it is that order exactly where no two infinities
  meet;
- `satisfiesSemver_iff`: a range is satisfied exactly if all comparators of one
  of its clauses are;
- `version_ranges_iff`: caret and tilde against the releases between their
  bounds, in both directions.

`next_major_in_range` is a prerelease of version 2, which the caret of a
version 1 admits.
-/

namespace DealFlow360.Capabilities

open Doubles Events Spacing

/-! ## The order of versions -/

abbrev Place : Type := WithTop ℚ ×ₗ WithTop ℚ ×ₗ WithTop ℚ ×ₗ WithTop (List (WithTop ℚ ⊕ₗ Text))

/-- Numbers come before texts. -/
def Ident.place : Ident → WithTop ℚ ⊕ₗ Text
  | .number value => toLex (.inl value)
  | .text value => toLex (.inr value)

/-- A release comes after its prereleases. -/
def prereleasePlace (prerelease : List Ident) : WithTop (List (WithTop ℚ ⊕ₗ Text)) :=
  if prerelease = [] then ⊤ else (prerelease.map Ident.place : List _)

namespace ParsedSemver

def place (version : ParsedSemver) : Place :=
  toLex (version.major, toLex (version.minor, toLex (version.patch, prereleasePlace version.prerelease)))

def core (version : ParsedSemver) : WithTop ℚ × WithTop ℚ × WithTop ℚ := (version.major, version.minor, version.patch)

/-- Two prereleases of one release that agree up to identifiers which are both read as infinity. -/
def ShareInfinity (left right : ParsedSemver) : Prop :=
  left.core = right.core ∧ ∃ common rest rest', left.prerelease = common ++ .number ⊤ :: rest ∧
    right.prerelease = common ++ .number ⊤ :: rest'

end ParsedSemver

theorem Ident.place_injective : Function.Injective Ident.place := by
  intro left right h
  cases left with
  | number left =>
      cases right with
      | number right => exact congrArg Ident.number (Sum.inl.inj (toLex.injective h))
      | text right => exact nomatch toLex.injective h
  | text left =>
      cases right with
      | number right => exact nomatch toLex.injective h
      | text right => exact congrArg Ident.text (Sum.inr.inj (toLex.injective h))

theorem prereleasePlace_injective : Function.Injective prereleasePlace := by
  intro left right h
  unfold prereleasePlace at h
  split_ifs at h with hleft hright hright
  · rw [hleft, hright]
  · exact absurd h WithTop.top_ne_coe
  · exact absurd h WithTop.coe_ne_top
  · exact Ident.place_injective.list_map (WithTop.coe_inj.mp h)

/-- Versions of one place are the same version. -/
theorem ParsedSemver.place_eq_iff {left right : ParsedSemver} :
    left.place = right.place ↔ left.core = right.core ∧ left.prerelease = right.prerelease := by
  unfold place core
  simp only [EmbeddingLike.apply_eq_iff_eq, Prod.mk.injEq, prereleasePlace_injective.eq_iff, and_assoc]

/-! ## Comparing places -/

theorem compares_subtract {left right : WithTop ℚ} {compared : Ordering} (h : subtract left right = some compared) :
    compared.Compares left right := by
  unfold subtract at h
  by_cases htop : left = ⊤ ∧ right = ⊤
  · rw [if_pos htop] at h
    cases h
  · rw [if_neg htop] at h
    obtain rfl := Option.some.inj h
    exact cmp_compares left right

theorem subtract_eq_none {left right : WithTop ℚ} : subtract left right = none ↔ left = ⊤ ∧ right = ⊤ := by
  unfold subtract
  by_cases h : left = ⊤ ∧ right = ⊤
  · rw [if_pos h]
    exact iff_of_true rfl h
  · rw [if_neg h]
    exact iff_of_false (Option.some_ne_none _) h

theorem compares_compareStrings (left right : Text) : (compareStrings left right).Compares left right := by
  unfold compareStrings
  split_ifs with hlt hgt
  · exact hlt
  · exact hgt
  · exact le_antisymm (not_lt.mp hgt) (not_lt.mp hlt)

theorem compares_ident {left right : Ident} {compared : Ordering}
    (h : comparePrereleaseIdent left right = some compared) : compared.Compares left.place right.place := by
  cases left with
  | number left =>
      cases right with
      | number right =>
          have hcompares := compares_subtract h
          cases compared with
          | lt => exact Sum.Lex.inl_lt_inl_iff.mpr hcompares
          | eq =>
              have hsame : left = right := hcompares
              rw [hsame]
              rfl
          | gt => exact Sum.Lex.inl_lt_inl_iff.mpr hcompares
      | text right =>
          obtain rfl := Option.some.inj h
          exact Sum.Lex.inl_lt_inr left right
  | text left =>
      cases right with
      | number right =>
          obtain rfl := Option.some.inj h
          exact Sum.Lex.inl_lt_inr right left
      | text right =>
          have hcompares := compares_compareStrings left right
          rw [Option.some.inj h] at hcompares
          cases compared with
          | lt => exact Sum.Lex.inr_lt_inr_iff.mpr hcompares
          | eq =>
              have hsame : left = right := hcompares
              rw [hsame]
              rfl
          | gt => exact Sum.Lex.inr_lt_inr_iff.mpr hcompares

theorem compares_prereleases : ∀ {left right : List Ident} {compared : Ordering},
    comparePrereleases left right = some compared → compared.Compares (left.map Ident.place) (right.map Ident.place)
  | [], [], compared, h => by
      obtain rfl := Option.some.inj h
      rfl
  | [], right :: rightPre, compared, h => by
      obtain rfl := Option.some.inj h
      exact List.nil_lt_cons _ _
  | left :: leftPre, [], compared, h => by
      obtain rfl := Option.some.inj h
      exact List.nil_lt_cons _ _
  | left :: leftPre, right :: rightPre, compared, h => by
      rw [comparePrereleases] at h
      rw [List.map_cons, List.map_cons]
      cases hident : comparePrereleaseIdent left right with
      | none =>
          rw [hident] at h
          cases h
      | some first =>
          rw [hident] at h
          have hfirst := compares_ident hident
          cases first with
          | lt =>
              obtain rfl := Option.some.inj h
              exact List.cons_lt_cons_iff.mpr (.inl hfirst)
          | gt =>
              obtain rfl := Option.some.inj h
              exact List.cons_lt_cons_iff.mpr (.inl hfirst)
          | eq =>
              have hrest := compares_prereleases h
              have hsame : left.place = right.place := hfirst
              rw [hsame]
              cases compared with
              | lt => exact List.cons_lt_cons_iff.mpr (.inr ⟨rfl, hrest⟩)
              | eq => exact congrArg _ hrest
              | gt => exact List.cons_lt_cons_iff.mpr (.inr ⟨rfl, hrest⟩)

theorem comparePrereleaseIdent_eq_none {left right : Ident} :
    comparePrereleaseIdent left right = none ↔ left = .number ⊤ ∧ right = .number ⊤ := by
  cases left with
  | number left =>
      cases right with
      | number right =>
          have hnone : comparePrereleaseIdent (.number left) (.number right) = subtract left right := rfl
          rw [hnone, subtract_eq_none, Ident.number.injEq, Ident.number.injEq]
      | text right => simp [comparePrereleaseIdent]
  | text left => cases right <;> simp [comparePrereleaseIdent]

/-- A comparison is NaN where two infinities meet. -/
theorem comparePrereleases_eq_none : ∀ {left right : List Ident}, comparePrereleases left right = none ↔
    ∃ common rest rest', left = common ++ .number ⊤ :: rest ∧ right = common ++ .number ⊤ :: rest'
  | [], right => by
      have hsome : comparePrereleases [] right ≠ none := by cases right <;> exact nofun
      simp [hsome]
  | left :: leftPre, [] => by simp [comparePrereleases]
  | left :: leftPre, right :: rightPre => by
      have ih := @comparePrereleases_eq_none leftPre rightPre
      constructor
      · intro h
        rw [comparePrereleases] at h
        split at h
        · rename_i hident
          obtain ⟨common, rest, rest', rfl, rfl⟩ := ih.mp h
          have hsame : left = right := Ident.place_injective (compares_ident hident)
          exact ⟨left :: common, rest, rest', rfl, by rw [hsame]; rfl⟩
        · obtain ⟨rfl, rfl⟩ := comparePrereleaseIdent_eq_none.mp h
          exact ⟨[], leftPre, rightPre, rfl, rfl⟩
      · rintro ⟨common, rest, rest', hleft, hright⟩
        cases common with
        | nil =>
            obtain ⟨rfl, -⟩ := List.cons.inj hleft
            obtain ⟨rfl, -⟩ := List.cons.inj hright
            rfl
        | cons ident common =>
            obtain ⟨hfirst, hrest⟩ := List.cons.inj hleft
            obtain ⟨hfirst', hrest'⟩ := List.cons.inj hright
            have hsame : left = right := hfirst.trans hfirst'.symm
            rw [comparePrereleases, hsame]
            cases hident : comparePrereleaseIdent right right with
            | none => rfl
            | some compared =>
                have hcompares := compares_ident hident
                cases compared with
                | eq => exact ih.mpr ⟨common, rest, rest', hrest, hrest'⟩
                | lt => exact absurd hcompares (lt_irrefl _)
                | gt => exact absurd hcompares (lt_irrefl _)

theorem compares_lex {α β : Type*} [LinearOrder α] [LinearOrder β] {a c : α} {b d : β} {compared : Ordering}
    (hne : a ≠ c → compared.Compares a c) (heq : a = c → compared.Compares b d) :
    compared.Compares (toLex (a, b)) (toLex (c, d)) := by
  by_cases h : a = c
  · subst h
    have hrest := heq rfl
    cases compared with
    | lt => exact Prod.Lex.toLex_lt_toLex.mpr (.inr ⟨rfl, hrest⟩)
    | eq => exact congrArg (fun rest => toLex (a, rest)) hrest
    | gt => exact Prod.Lex.toLex_lt_toLex.mpr (.inr ⟨rfl, hrest⟩)
  · have hfirst := hne h
    cases compared with
    | lt => exact Prod.Lex.toLex_lt_toLex.mpr (.inl hfirst)
    | eq => exact absurd hfirst h
    | gt => exact Prod.Lex.toLex_lt_toLex.mpr (.inl hfirst)

/-- `compareParsed` compares places. -/
theorem compares_compareParsed {left right : ParsedSemver} {compared : Ordering}
    (h : compareParsed left right = some compared) : compared.Compares left.place right.place := by
  unfold compareParsed at h
  refine compares_lex (fun hmajor => ?_) fun hmajor => ?_
  · rw [if_pos hmajor] at h
    exact compares_subtract h
  rw [if_neg (not_not.mpr hmajor)] at h
  refine compares_lex (fun hminor => ?_) fun hminor => ?_
  · rw [if_pos hminor] at h
    exact compares_subtract h
  rw [if_neg (not_not.mpr hminor)] at h
  refine compares_lex (fun hpatch => ?_) fun hpatch => ?_
  · rw [if_pos hpatch] at h
    exact compares_subtract h
  rw [if_neg (not_not.mpr hpatch)] at h
  unfold prereleasePlace
  by_cases hleft : left.prerelease = []
  · by_cases hright : right.prerelease = []
    · rw [if_pos ⟨hleft, hright⟩] at h
      obtain rfl := Option.some.inj h
      rw [if_pos hleft, if_pos hright]
      rfl
    · rw [if_neg fun hboth => hright hboth.2, if_pos hleft] at h
      obtain rfl := Option.some.inj h
      rw [if_pos hleft, if_neg hright]
      exact WithTop.coe_lt_top _
  · rw [if_neg fun hboth => hleft hboth.1, if_neg hleft] at h
    rw [if_neg hleft]
    by_cases hright : right.prerelease = []
    · rw [if_pos hright] at h ⊢
      obtain rfl := Option.some.inj h
      exact WithTop.coe_lt_top _
    · rw [if_neg hright] at h ⊢
      have hcompares := compares_prereleases h
      cases compared with
      | lt => exact WithTop.coe_lt_coe.mpr hcompares
      | eq => exact congrArg WithTop.some hcompares
      | gt => exact WithTop.coe_lt_coe.mpr hcompares

theorem compareParsed_eq_none {left right : ParsedSemver} : compareParsed left right = none ↔
    left.ShareInfinity right := by
  have hdiffer {a b : WithTop ℚ} (h : a ≠ b) : subtract a b ≠ none := by
    rw [Ne, subtract_eq_none]
    rintro ⟨rfl, rfl⟩
    exact h rfl
  unfold compareParsed ParsedSemver.ShareInfinity ParsedSemver.core
  simp only [Prod.mk.injEq]
  by_cases hmajor : left.major = right.major
  · by_cases hminor : left.minor = right.minor
    · by_cases hpatch : left.patch = right.patch
      · rw [if_neg (not_not.mpr hmajor), if_neg (not_not.mpr hminor), if_neg (not_not.mpr hpatch)]
        rw [← comparePrereleases_eq_none]
        cases hleft : left.prerelease with
        | nil => cases hright : right.prerelease <;> simp [comparePrereleases]
        | cons ident rest => cases hright : right.prerelease <;> simp [comparePrereleases, hmajor, hminor, hpatch]
      · rw [if_neg (not_not.mpr hmajor), if_neg (not_not.mpr hminor), if_pos hpatch]
        exact ⟨fun h => absurd h (hdiffer hpatch), fun h => absurd h.1.2.2 hpatch⟩
    · rw [if_neg (not_not.mpr hmajor), if_pos hminor]
      exact ⟨fun h => absurd h (hdiffer hminor), fun h => absurd h.1.2.1 hminor⟩
  · rw [if_pos hmajor]
    exact ⟨fun h => absurd h (hdiffer hmajor), fun h => absurd h.1.1 hmajor⟩

/-- `compareParsed` is the order of places exactly where no two infinities meet. -/
theorem compareParsed_eq_iff (left right : ParsedSemver) :
    compareParsed left right = some (cmp left.place right.place) ↔ ¬left.ShareInfinity right := by
  rw [← compareParsed_eq_none]
  constructor
  · intro h hnone
    rw [h] at hnone
    cases hnone
  · intro h
    obtain ⟨compared, hcompared⟩ := Option.ne_none_iff_exists'.mp h
    rw [hcompared, (compares_compareParsed hcompared).inj (cmp_compares _ _)]

/-! ## The numbers of a version -/

/-- What a numeral is read as. -/
def IsNumber (value : WithTop ℚ) : Prop := ∃ n : ℕ, value = toDouble n

structure ParsedSemver.Numbered (version : ParsedSemver) : Prop where
  major : IsNumber version.major
  minor : IsNumber version.minor
  patch : IsNumber version.patch

theorem numbered_of_parse {text : Text} {version : ParsedSemver} (h : parseSemver text = some version) :
    version.Numbered := by
  unfold parseSemver at h
  dsimp only at h
  split at h
  · split_ifs at h
    obtain rfl := Option.some.inj h
    exact ⟨⟨_, rfl⟩, ⟨_, rfl⟩, ⟨_, rfl⟩⟩
  · cases h

theorem IsNumber.nonneg {value : WithTop ℚ} (h : IsNumber value) : 0 ≤ value := by
  obtain ⟨n, rfl⟩ := h
  have hzero : toDouble ((0 : ℕ) : ℚ) = ((0 : ℚ) : WithTop ℚ) := by
    rw [toDouble_natCast (Nat.zero_le _), Nat.cast_zero]
  have hmono : toDouble ((0 : ℕ) : ℚ) ≤ toDouble (n : ℚ) := toDouble_mono (by simp) (by simp)
  rwa [hzero] at hmono

theorem IsNumber.le_next {value : WithTop ℚ} (h : IsNumber value) : value ≤ next value := by
  obtain ⟨n, hn⟩ := h
  induction value with
  | top => exact le_rfl
  | coe value =>
      obtain ⟨k, rfl⟩ := toDouble_natCast_eq hn.symm
      have hself := toDouble_of_eq (Nat.cast_nonneg n) hn.symm
      show ((k : ℚ) : WithTop ℚ) ≤ toDouble (k + 1)
      rw [← hself]
      exact toDouble_mono (Nat.cast_nonneg k) (by linarith)

/-- There is no number between one and the next. -/
theorem IsNumber.next_le {value value' : WithTop ℚ} (h : IsNumber value) (h' : IsNumber value') (hlt : value < value') :
    next value ≤ value' := by
  obtain ⟨n, hn⟩ := h
  obtain ⟨n', rfl⟩ := h'
  induction value with
  | top => exact absurd hlt not_top_lt
  | coe value =>
      obtain ⟨k, rfl⟩ := toDouble_natCast_eq hn.symm
      have hself := toDouble_of_eq (Nat.cast_nonneg n) hn.symm
      have hk : k < n' := by
        by_contra hle
        rw [← hself] at hlt
        exact absurd (toDouble_mono (Nat.cast_nonneg n') (by exact_mod_cast not_lt.mp hle)) (not_le.mpr hlt)
      show toDouble (k + 1) ≤ toDouble n'
      exact toDouble_mono (by positivity) (by exact_mod_cast hk)

/-! ## Between a bound and the next release -/

section Between

variable {β : Type*} [LinearOrder β]

theorem between_same {a x : WithTop ℚ} {r y r' : β} (hlow : toLex (a, r) ≤ toLex (x, y))
    (hhigh : toLex (x, y) < toLex (a, r')) : x = a ∧ r ≤ y ∧ y < r' := by
  rw [Prod.Lex.toLex_le_toLex] at hlow
  rw [Prod.Lex.toLex_lt_toLex] at hhigh
  dsimp only at hlow hhigh
  rcases hlow with hlow | ⟨hlow, hrest⟩
  · rcases hhigh with hhigh | ⟨hhigh, -⟩
    · exact absurd hhigh (not_lt.mpr hlow.le)
    · exact absurd hhigh hlow.ne'
  · rcases hhigh with hhigh | ⟨-, hrest'⟩
    · exact absurd hlow hhigh.ne'
    · exact ⟨hlow.symm, hrest, hrest'⟩

theorem between_next {a x : WithTop ℚ} (ha : IsNumber a) (hx : IsNumber x) {r y r' : β}
    (hlow : toLex (a, r) ≤ toLex (x, y)) (hhigh : toLex (x, y) < toLex (next a, r')) :
    x = a ∨ x = next a ∧ y < r' := by
  rw [Prod.Lex.toLex_le_toLex] at hlow
  rw [Prod.Lex.toLex_lt_toLex] at hhigh
  dsimp only at hlow hhigh
  rcases hlow with hlow | ⟨hlow, -⟩
  · rcases hhigh with hhigh | hhigh
    · exact absurd (ha.next_le hx hlow) (not_le.mpr hhigh)
    · exact .inr hhigh
  · exact .inl hlow.symm

theorem below_zero {x : WithTop ℚ} (hx : IsNumber x) {y r : β} (h : toLex (x, y) < toLex (0, r)) : x = 0 ∧ y < r := by
  rw [Prod.Lex.toLex_lt_toLex] at h
  rcases h with h | h
  · exact absurd h (not_lt.mpr hx.nonneg)
  · exact h

end Between

theorem prereleasePlace_lt_top {prerelease : List Ident} :
    prereleasePlace prerelease < prereleasePlace [] ↔ prerelease ≠ [] := by
  unfold prereleasePlace
  rw [if_pos rfl]
  split_ifs with h
  · simp [h]
  · simp [h]

/-- Every component up to the first of the bound that is not zero. -/
def AgreesUpTo (bound version : ParsedSemver) : Prop :=
  if bound.major ≠ 0 then version.major = bound.major
  else if bound.minor ≠ 0 then version.major = bound.major ∧ version.minor = bound.minor
  else version.core = bound.core

/-- The first component that is not zero, or the patch. -/
def leading (bound : ParsedSemver) : WithTop ℚ :=
  if 0 < bound.major then bound.major else if 0 < bound.minor then bound.minor else bound.patch

/-- A prerelease of the release that ends a range, which is another release than the bound's. -/
def BeyondRange (component : WithTop ℚ) (upper version : ParsedSemver) : Prop :=
  version.prerelease ≠ [] ∧ version.core = upper.core ∧ next component ≠ component

theorem IsNumber.eq_zero {value : WithTop ℚ} (h : IsNumber value) (hpos : ¬0 < value) : value = 0 :=
  le_antisymm (not_lt.mp hpos) h.nonneg

theorem IsNumber.lt_next {value : WithTop ℚ} (h : IsNumber value) (hne : next value ≠ value) : value < next value :=
  lt_of_le_of_ne h.le_next hne.symm

theorem caret_bounds {bound version : ParsedSemver} (hbound : bound.Numbered) (hversion : version.Numbered)
    (hlow : bound.place ≤ version.place) (hhigh : version.place < (caretUpper bound).place)
    (hbeyond : ¬BeyondRange (leading bound) (caretUpper bound) version) : AgreesUpTo bound version := by
  unfold caretUpper at hhigh hbeyond
  unfold leading at hbeyond
  unfold AgreesUpTo
  unfold ParsedSemver.place at hlow hhigh
  by_cases hmajor : 0 < bound.major
  · rw [if_pos hmajor] at hhigh
    rw [if_pos hmajor, if_pos hmajor] at hbeyond
    rw [if_pos hmajor.ne']
    by_contra hne
    obtain ⟨hnext, hrest⟩ := (between_next hbound.major hversion.major hlow hhigh).resolve_left hne
    obtain ⟨hminor, hrest⟩ := below_zero hversion.minor hrest
    obtain ⟨hpatch, hrest⟩ := below_zero hversion.patch hrest
    refine hbeyond ⟨prereleasePlace_lt_top.mp hrest, ?_, fun hsame => hne (hnext.trans hsame)⟩
    simp only [ParsedSemver.core, hnext, hminor, hpatch]
  have hzero := hbound.major.eq_zero hmajor
  rw [if_neg (not_not.mpr hzero)]
  by_cases hminor : 0 < bound.minor
  · rw [if_neg hmajor, if_pos hminor] at hhigh
    rw [if_neg hmajor, if_neg hmajor, if_pos hminor, if_pos hminor] at hbeyond
    rw [if_pos hminor.ne']
    rw [hzero] at hlow ⊢
    obtain ⟨hsame, hlow, hhigh⟩ := between_same hlow hhigh
    refine ⟨hsame, ?_⟩
    by_contra hne
    obtain ⟨hnext, hrest⟩ := (between_next hbound.minor hversion.minor hlow hhigh).resolve_left hne
    obtain ⟨hpatch, hrest⟩ := below_zero hversion.patch hrest
    refine hbeyond ⟨prereleasePlace_lt_top.mp hrest, ?_, fun hsame => hne (hnext.trans hsame)⟩
    simp only [ParsedSemver.core, hsame, hnext, hpatch]
  have hzero' := hbound.minor.eq_zero hminor
  rw [if_neg hmajor, if_neg hminor] at hhigh
  rw [if_neg hmajor, if_neg hmajor, if_neg hminor, if_neg hminor] at hbeyond
  rw [if_neg (not_not.mpr hzero')]
  rw [hzero, hzero'] at hlow
  obtain ⟨hsame, hlow, hhigh⟩ := between_same hlow hhigh
  obtain ⟨hsame', hlow, hhigh⟩ := between_same hlow hhigh
  unfold ParsedSemver.core
  rw [hsame, hsame', hzero, hzero']
  by_contra hne
  rcases between_next hbound.patch hversion.patch hlow hhigh with hpatch | ⟨hnext, hrest⟩
  · exact hne (by rw [hpatch])
  · refine hbeyond ⟨prereleasePlace_lt_top.mp hrest, ?_, fun hsame => hne (by rw [hnext, hsame])⟩
    simp only [ParsedSemver.core, hsame, hsame', hnext]

theorem tilde_bounds {bound version : ParsedSemver} (hbound : bound.Numbered) (hversion : version.Numbered)
    (hlow : bound.place ≤ version.place) (hhigh : version.place < (tildeUpper bound).place)
    (hbeyond : ¬BeyondRange bound.minor (tildeUpper bound) version) :
    version.major = bound.major ∧ version.minor = bound.minor := by
  obtain ⟨hsame, hlow, hhigh⟩ := between_same hlow hhigh
  refine ⟨hsame, ?_⟩
  by_contra hne
  obtain ⟨hnext, hrest⟩ := (between_next hbound.minor hversion.minor hlow hhigh).resolve_left hne
  obtain ⟨hpatch, hrest⟩ := below_zero hversion.patch hrest
  refine hbeyond ⟨prereleasePlace_lt_top.mp hrest, ?_, fun hsame => hne (hnext.trans hsame)⟩
  simp only [ParsedSemver.core, hsame, hnext, hpatch]
  rfl

/-! ## Beyond a range -/

theorem place_lt_of_core {version release : ParsedSemver} (hcore : version.core = release.core)
    (hrelease : release.prerelease = []) (hprerelease : version.prerelease ≠ []) : version.place < release.place := by
  obtain ⟨hmajor, hrest⟩ := Prod.mk.inj hcore
  obtain ⟨hminor, hpatch⟩ := Prod.mk.inj hrest
  unfold ParsedSemver.place
  rw [hmajor, hminor, hpatch, hrelease]
  refine Prod.Lex.toLex_lt_toLex.mpr (.inr ⟨rfl, Prod.Lex.toLex_lt_toLex.mpr (.inr ⟨rfl, ?_⟩)⟩)
  exact Prod.Lex.toLex_lt_toLex.mpr (.inr ⟨rfl, prereleasePlace_lt_top.mpr hprerelease⟩)

theorem caret_beyond {bound version : ParsedSemver} (hbound : bound.Numbered)
    (h : BeyondRange (leading bound) (caretUpper bound) version) :
    bound.place < version.place ∧ version.place < (caretUpper bound).place ∧ version.core ≠ bound.core ∧
      ¬AgreesUpTo bound version := by
  obtain ⟨hprerelease, hcore, hne⟩ := h
  have hrelease : (caretUpper bound).prerelease = [] := by
    unfold caretUpper
    split_ifs <;> rfl
  suffices habove : bound.place < version.place ∧ ¬AgreesUpTo bound version by
    refine ⟨habove.1, place_lt_of_core hcore hrelease hprerelease, fun hsame => habove.2 ?_, habove.2⟩
    obtain ⟨hmajor, hrest⟩ := Prod.mk.inj hsame
    obtain ⟨hminor, -⟩ := Prod.mk.inj hrest
    unfold AgreesUpTo
    split_ifs
    · exact hmajor
    · exact ⟨hmajor, hminor⟩
    · exact hsame
  unfold leading at hne
  unfold caretUpper at hcore
  unfold AgreesUpTo ParsedSemver.place
  by_cases hmajor : 0 < bound.major
  · rw [if_pos hmajor] at hne hcore
    rw [if_pos hmajor.ne']
    obtain ⟨hnext, -⟩ := Prod.mk.inj hcore
    dsimp only at hnext
    rw [hnext]
    exact ⟨Prod.Lex.toLex_lt_toLex.mpr (.inl (hbound.major.lt_next hne)), hne⟩
  have hzero := hbound.major.eq_zero hmajor
  rw [if_neg hmajor] at hne hcore
  rw [if_neg (not_not.mpr hzero)]
  by_cases hminor : 0 < bound.minor
  · rw [if_pos hminor] at hne hcore
    rw [if_pos hminor.ne']
    obtain ⟨hsame, hrest⟩ := Prod.mk.inj hcore
    obtain ⟨hnext, -⟩ := Prod.mk.inj hrest
    dsimp only at hsame hnext
    rw [hsame, hnext, hzero]
    refine ⟨Prod.Lex.toLex_lt_toLex.mpr (.inr ⟨rfl, Prod.Lex.toLex_lt_toLex.mpr (.inl (hbound.minor.lt_next hne))⟩), ?_⟩
    exact fun hagrees => hne hagrees.2
  have hzero' := hbound.minor.eq_zero hminor
  rw [if_neg hminor] at hne hcore
  rw [if_neg (not_not.mpr hzero')]
  obtain ⟨hsame, hrest⟩ := Prod.mk.inj hcore
  obtain ⟨hsame', hnext⟩ := Prod.mk.inj hrest
  dsimp only at hsame hsame' hnext
  unfold ParsedSemver.core
  rw [hsame, hsame', hnext, hzero, hzero']
  refine ⟨Prod.Lex.toLex_lt_toLex.mpr (.inr ⟨rfl, Prod.Lex.toLex_lt_toLex.mpr (.inr ⟨rfl, ?_⟩)⟩), ?_⟩
  · exact Prod.Lex.toLex_lt_toLex.mpr (.inl (hbound.patch.lt_next hne))
  · exact fun hagrees => hne (Prod.mk.inj (Prod.mk.inj hagrees).2).2

theorem tilde_beyond {bound version : ParsedSemver} (hbound : bound.Numbered)
    (h : BeyondRange bound.minor (tildeUpper bound) version) :
    bound.place < version.place ∧ version.place < (tildeUpper bound).place ∧ version.core ≠ bound.core ∧
      version.minor ≠ bound.minor := by
  obtain ⟨hprerelease, hcore, hne⟩ := h
  obtain ⟨hmajor, hrest⟩ := Prod.mk.inj hcore
  obtain ⟨hminor, -⟩ := Prod.mk.inj hrest
  have hdiffers : version.minor ≠ bound.minor := fun hsame => hne (hminor.symm.trans hsame)
  refine ⟨?_, place_lt_of_core hcore rfl hprerelease, fun hsame => hdiffers ?_, hdiffers⟩
  · unfold ParsedSemver.place
    rw [hmajor, hminor]
    exact Prod.Lex.toLex_lt_toLex.mpr (.inr ⟨rfl, Prod.Lex.toLex_lt_toLex.mpr (.inl (hbound.minor.lt_next hne))⟩)
  · exact (Prod.mk.inj (Prod.mk.inj hsame).2).1

/-! ## Comparators and clauses -/

theorem above_iff {left right : ParsedSemver} :
    isOneOf (compareParsed left right) [.gt, .eq] = true ↔ right.place ≤ left.place ∧ ¬left.ShareInfinity right := by
  rw [← compareParsed_eq_none]
  cases h : compareParsed left right with
  | none => simp [isOneOf]
  | some compared =>
      have hcompares := compares_compareParsed h
      cases compared with
      | lt => simpa [isOneOf] using hcompares
      | eq => simpa [isOneOf] using (show left.place = right.place from hcompares).ge
      | gt => simpa [isOneOf] using (show right.place < left.place from hcompares).le

theorem below_iff {left right : ParsedSemver} (hright : right.prerelease = []) :
    isOneOf (compareParsed left right) [.lt] = true ↔ left.place < right.place := by
  cases h : compareParsed left right with
  | none =>
      obtain ⟨-, common, rest, rest', -, heq⟩ := compareParsed_eq_none.mp h
      rw [hright] at heq
      exact absurd heq.symm (List.append_ne_nil_of_right_ne_nil _ (List.cons_ne_nil _ _))
  | some compared =>
      have hcompares := compares_compareParsed h
      cases compared with
      | lt => simpa [isOneOf] using hcompares
      | eq => simpa [isOneOf] using (show left.place = right.place from hcompares).ge
      | gt => simpa [isOneOf] using (show right.place < left.place from hcompares).le

/-! ## The texts of versions -/

theorem mem_splitOn {sep text : Text} (hsep : sep ≠ []) {unit : ℕ} (h : unit ∈ text) :
    unit ∈ sep ∨ ∃ piece ∈ splitOn sep text, unit ∈ piece := by
  refine splitOn_induction (P := fun text pieces => unit ∈ text → unit ∈ sep ∨ ∃ piece ∈ pieces, unit ∈ piece) hsep
    (fun h => absurd h List.not_mem_nil) (fun text pieces ih h => ?_) (fun first text piece pieces _ ih h => ?_) text h
  · rcases List.mem_append.mp h with h | h
    · exact .inl h
    · rcases ih h with hsep | ⟨piece, hpiece, hunit⟩
      · exact .inl hsep
      · exact .inr ⟨piece, List.mem_cons_of_mem _ hpiece, hunit⟩
  · rcases List.mem_cons.mp h with rfl | h
    · exact .inr ⟨_, List.mem_cons_self, List.mem_cons_self⟩
    · rcases ih h with hsep | ⟨found, hfound, hunit⟩
      · exact .inl hsep
      · rcases List.mem_cons.mp hfound with rfl | hfound
        · exact .inr ⟨_, List.mem_cons_self, List.mem_cons_of_mem _ hunit⟩
        · exact .inr ⟨found, List.mem_cons_of_mem _ hfound, hunit⟩

theorem isPrereleaseUnit_of_numeral {text : Text} (h : isNumeral text = true) {unit : ℕ} (hunit : unit ∈ text) :
    isPrereleaseUnit unit = true := by
  unfold isNumeral at h
  simp only [Bool.or_eq_true, Bool.and_eq_true, decide_eq_true_eq, List.all_eq_true] at h
  have hdigit : isDigit unit = true := by
    rcases h with rfl | ⟨⟨-, hall⟩, -⟩
    · rw [List.mem_singleton.mp hunit]
      rfl
    · exact hall unit hunit
  simp [isPrereleaseUnit, hdigit]

/-- A version is written with digits, letters, points and dashes. -/
theorem raw_units {text : Text} {version : ParsedSemver} (h : parseSemver text = some version) :
    version.raw = trimText text ∧ version.raw ≠ [] ∧ ∀ unit ∈ version.raw, isPrereleaseUnit unit = true := by
  unfold parseSemver at h
  dsimp only at h
  split at h
  · rename_i major minor patch prerelease hcore hrest
    split_ifs at h with hnumerals
    obtain rfl := Option.some.inj h
    refine ⟨rfl, fun hnil => ?_, fun unit hunit => ?_⟩
    · dsimp only at hnil
      rw [hnil] at hcore
      cases hcore
    · dsimp only at hunit
      rw [← List.takeWhile_append_dropWhile (p := fun unit => decide (unit ≠ '-'.toNat)) (l := trimText text)] at hunit
      rcases List.mem_append.mp hunit with hunit | hunit
      · rcases mem_splitOn (List.cons_ne_nil '.'.toNat []) hunit with hdot | ⟨piece, hpiece, hunit⟩
        · rw [List.mem_singleton.mp hdot]
          rfl
        · rw [hcore] at hpiece
          have hnumeral : isNumeral piece = true := by
            simp only [List.mem_cons, List.not_mem_nil, or_false] at hpiece
            rcases hpiece with rfl | rfl | rfl
            · exact hnumerals.1
            · exact hnumerals.2.1
            · exact hnumerals.2.2
          exact isPrereleaseUnit_of_numeral hnumeral hunit
      · cases hdrop : (trimText text).dropWhile (fun unit => decide (unit ≠ '-'.toNat)) with
        | nil =>
            rw [hdrop] at hunit
            cases hunit
        | cons dash rest =>
            rw [hdrop] at hrest hunit
            unfold parsePrerelease at hrest
            dsimp only at hrest
            split_ifs at hrest with hall
            rcases List.mem_cons.mp hunit with rfl | hunit
            · have hhead := List.head?_dropWhile_not (fun unit => decide (unit ≠ '-'.toNat)) (trimText text)
              rw [hdrop] at hhead
              have hdash : unit = '-'.toNat := by simpa using hhead
              rw [hdash]
              rfl
            · exact List.all_eq_true.mp hall.2 unit hunit
  · cases h

theorem trimText_of_no_space {text : Text} (h : ∀ unit ∈ text, isSpaceUnit unit = false) : trimText text = text := by
  unfold trimText
  have hfront : text.dropWhile isSpaceUnit = text := by
    cases text with
    | nil => rfl
    | cons first rest => rw [List.dropWhile_cons, if_neg (by rw [h first List.mem_cons_self]; nofun)]
  rw [hfront]
  exact List.rdropWhile_eq_self_iff.mpr fun hne => by rw [h _ (List.getLast_mem hne)]; nofun

theorem not_space_of_isPrereleaseUnit {unit : ℕ} (h : isPrereleaseUnit unit = true) :
    isSpaceUnit unit = false ∧ unit ≠ '|'.toNat := by
  simp only [isPrereleaseUnit, isDigit, Bool.or_eq_true, Bool.and_eq_true, decide_eq_true_eq, Char.reduceToNat] at h
  simp only [isSpaceUnit, List.mem_cons, List.not_mem_nil, or_false, Bool.or_eq_false_iff, decide_eq_false_iff_not,
    Char.reduceToNat]
  omega

/-- A clause is satisfied exactly if all its comparators are, and a range exactly if one of its clauses is. -/
theorem satisfiesSemver_iff {text : Text} {version : ParsedSemver} (hversion : parseSemver text = some version)
    (range : Text) : satisfiesSemver text range = true ↔ ∃ clause ∈ splitOn (codeUnits "||") (trimText range),
      ∀ token ∈ tokens (trimText clause), comparatorSatisfied version token = true := by
  have hclause (clause : Text) : clauseSatisfied version clause = true ↔
      ∀ token ∈ tokens clause, comparatorSatisfied version token = true := by
    unfold clauseSatisfied
    split_ifs with hany
    · rcases hany with rfl | rfl
      · simp [tokens]
      · have htokens : tokens ['*'.toNat] = [['*'.toNat]] := by decide
        rw [htokens]
        simp [comparatorSatisfied]
    · exact List.all_eq_true
  unfold satisfiesSemver
  dsimp only
  rw [hversion]
  split_ifs with hany
  · refine ⟨fun _ => ⟨trimText range, ?_, ?_⟩, fun _ => rfl⟩
    · rcases hany with hany | hany
      · rw [hany]
        decide
      · rw [hany]
        decide
    · refine (hclause _).mp ?_
      rcases hany with hany | hany
      · rw [hany]
        rfl
      · rw [hany]
        rfl
  · simp only [List.any_eq_true, hclause]

/-- A range of one comparator. -/
theorem satisfies_sign {text text' : Text} {version bound : ParsedSemver} (hversion : parseSemver text = some version)
    (hbound : parseSemver text' = some bound) {sign : ℕ} (hsign : sign = '^'.toNat ∨ sign = '~'.toNat) :
    satisfiesSemver text (sign :: bound.raw) = comparatorSatisfied version (sign :: bound.raw) := by
  obtain ⟨-, hne, hunits⟩ := raw_units hbound
  have hplain : ∀ unit ∈ sign :: bound.raw, isSpaceUnit unit = false ∧ unit ≠ '|'.toNat := by
    intro unit hunit
    rcases List.mem_cons.mp hunit with rfl | hunit
    · rcases hsign with rfl | rfl <;> decide
    · exact not_space_of_isPrereleaseUnit (hunits unit hunit)
  have htrim := trimText_of_no_space fun unit hunit => (hplain unit hunit).1
  have hsplit : splitOn (codeUnits "||") (sign :: bound.raw) = [sign :: bound.raw] := by
    refine splitOn_of_not_infix fun hcontains => ?_
    exact (hplain '|'.toNat (hcontains.subset (by decide))).2 rfl
  have htokens : tokens (sign :: bound.raw) = [sign :: bound.raw] := by
    unfold tokens
    rw [List.splitOnP_eq_singleton fun unit hunit => (hplain unit hunit).1]
    simp
  rw [Bool.eq_iff_iff, satisfiesSemver_iff hversion, htrim, hsplit]
  simp [htrim, htokens]

theorem parse_raw {text : Text} {version : ParsedSemver} (h : parseSemver text = some version) :
    parseSemver (trimText version.raw) = some version ∧ trimText version.raw = version.raw := by
  obtain ⟨hraw, -, hunits⟩ := raw_units h
  have htrim := trimText_of_no_space fun unit hunit => (not_space_of_isPrereleaseUnit (hunits unit hunit)).1
  refine ⟨?_, htrim⟩
  rw [htrim, ← h]
  unfold parseSemver
  rw [htrim, hraw]

theorem operators_eq : operators = [([62, 61], .atLeast), ([60, 61], .atMost), ([62], .above), ([60], .below),
    ([61], .equal), ([94], .caret), ([126], .tilde)] := by decide

theorem splitOperator_caret {rest : Text} (h : rest ≠ []) : splitOperator ('^'.toNat :: rest) = (.caret, rest) := by
  obtain ⟨unit, rest, rfl⟩ := List.exists_cons_of_ne_nil h
  simp [splitOperator, operators_eq]

theorem splitOperator_tilde {rest : Text} (h : rest ≠ []) : splitOperator ('~'.toNat :: rest) = (.tilde, rest) := by
  obtain ⟨unit, rest, rfl⟩ := List.exists_cons_of_ne_nil h
  simp [splitOperator, operators_eq]

theorem raw_ne_star {text : Text} {version : ParsedSemver} (h : parseSemver text = some version) :
    version.raw ≠ ['*'.toNat] := by
  intro hstar
  have hunit := (raw_units h).2.2 '*'.toNat (by rw [hstar]; exact List.mem_cons_self)
  revert hunit
  decide

section Ranges

variable {text text' : Text} {version bound : ParsedSemver} (hversion : parseSemver text = some version)
  (hbound : parseSemver text' = some bound)

include hversion hbound

theorem satisfies_caret : satisfiesSemver text ('^'.toNat :: bound.raw) = true ↔
    bound.place ≤ version.place ∧ ¬version.ShareInfinity bound ∧ version.place < (caretUpper bound).place := by
  obtain ⟨hparse, htrim⟩ := parse_raw hbound
  have hrelease : (caretUpper bound).prerelease = [] := by
    unfold caretUpper
    split_ifs <;> rfl
  rw [satisfies_sign hversion hbound (.inl rfl)]
  unfold comparatorSatisfied
  rw [if_neg (by simp), splitOperator_caret (raw_units hbound).2.1]
  dsimp only
  rw [htrim, if_neg (raw_ne_star hbound), ← htrim, hparse]
  dsimp only
  rw [Bool.and_eq_true, above_iff, below_iff hrelease, and_assoc]

theorem satisfies_tilde : satisfiesSemver text ('~'.toNat :: bound.raw) = true ↔
    bound.place ≤ version.place ∧ ¬version.ShareInfinity bound ∧ version.place < (tildeUpper bound).place := by
  obtain ⟨hparse, htrim⟩ := parse_raw hbound
  rw [satisfies_sign hversion hbound (.inr rfl)]
  unfold comparatorSatisfied
  rw [if_neg (by simp), splitOperator_tilde (raw_units hbound).2.1]
  dsimp only
  rw [htrim, if_neg (raw_ne_star hbound), ← htrim, hparse]
  dsimp only
  rw [Bool.and_eq_true, above_iff, below_iff rfl, and_assoc]

/-- Comparing two versions is comparing their places in a linear order exactly if no two identifiers read as
infinity meet, and versions of one place are the same. A version in a caret or tilde range is not below the bound
and agrees with it, except for a prerelease of the release that ends the range. Clauses and ranges mean what they
say. -/
theorem version_ranges_iff :
    (compareParsed version bound = some (cmp version.place bound.place) ↔ ¬version.ShareInfinity bound) ∧
      (version.place = bound.place ↔ version.core = bound.core ∧ version.prerelease = bound.prerelease) ∧
      ((satisfiesSemver text ('^'.toNat :: bound.raw) = true →
          bound.place ≤ version.place ∧ AgreesUpTo bound version) ↔
        ¬BeyondRange (leading bound) (caretUpper bound) version) ∧
      ((satisfiesSemver text ('~'.toNat :: bound.raw) = true →
          bound.place ≤ version.place ∧ version.major = bound.major ∧ version.minor = bound.minor) ↔
        ¬BeyondRange bound.minor (tildeUpper bound) version) ∧
      ∀ range, satisfiesSemver text range = true ↔ ∃ clause ∈ splitOn (codeUnits "||") (trimText range),
        ∀ token ∈ tokens (trimText clause), comparatorSatisfied version token = true := by
  have hnumbers := numbered_of_parse hversion
  have hnumbers' := numbered_of_parse hbound
  refine ⟨compareParsed_eq_iff _ _, ParsedSemver.place_eq_iff, ?_, ?_, satisfiesSemver_iff hversion⟩
  · rw [satisfies_caret hversion hbound]
    constructor
    · intro h hbeyond
      obtain ⟨hlow, hhigh, hcore, hdiffers⟩ := caret_beyond hnumbers' hbeyond
      exact hdiffers (h ⟨hlow.le, fun hshare => hcore hshare.1, hhigh⟩).2
    · rintro hbeyond ⟨hlow, -, hhigh⟩
      exact ⟨hlow, caret_bounds hnumbers' hnumbers hlow hhigh hbeyond⟩
  · rw [satisfies_tilde hversion hbound]
    constructor
    · intro h hbeyond
      obtain ⟨hlow, hhigh, hcore, hdiffers⟩ := tilde_beyond hnumbers' hbeyond
      exact hdiffers (h ⟨hlow.le, fun hshare => hcore hshare.1, hhigh⟩).2.2
    · rintro hbeyond ⟨hlow, -, hhigh⟩
      exact ⟨hlow, tilde_bounds hnumbers' hnumbers hlow hhigh hbeyond⟩

end Ranges

/-- Version 1.4.0 and the bound 1.2.3. -/
theorem minor_release_in_range : ∃ version bound, parseSemver (codeUnits "1.4.0") = some version ∧
    parseSemver (codeUnits "1.2.3") = some bound ∧
    ((satisfiesSemver (codeUnits "1.4.0") ('^'.toNat :: bound.raw) = true →
        bound.place ≤ version.place ∧ AgreesUpTo bound version) ↔
      ¬BeyondRange (leading bound) (caretUpper bound) version) := by
  have hversion : (parseSemver (codeUnits "1.4.0")).isSome = true := by decide
  have hbound : (parseSemver (codeUnits "1.2.3")).isSome = true := by decide
  obtain ⟨version, hversion⟩ := Option.isSome_iff_exists.mp hversion
  obtain ⟨bound, hbound⟩ := Option.isSome_iff_exists.mp hbound
  exact ⟨version, bound, hversion, hbound, (version_ranges_iff hversion hbound).2.2.1⟩

/-- A prerelease of version 2 is in the range of version 1. -/
theorem next_major_in_range : satisfiesSemver (codeUnits "2.0.0-alpha") (codeUnits "^1.2.3") = true ∧
    (parseSemver (codeUnits "2.0.0-alpha")).map ParsedSemver.major ≠
      (parseSemver (codeUnits "1.2.3")).map ParsedSemver.major := by
  refine ⟨?_, ?_⟩
  · decide +kernel
  · decide +kernel

end DealFlow360.Capabilities
