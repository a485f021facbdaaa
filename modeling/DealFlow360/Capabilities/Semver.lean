import DealFlow360.Lib.Spacing
import DealFlow360.Numerals

/-!
# Versions and ranges

`semver.ts`: versions with prereleases, their order, and the ranges that
profiles put on them. Numerals become doubles; of a comparison the sign is
kept, and none stands for NaN.

A version is three numbers and a list of identifiers; an identifier of digits
is a number, read as a double, so that a long one is infinity and the
difference of two of them is NaN. `compareParsed` follows the source comparison
by comparison, and answers none where the source's result is NaN and every test
of it is false.

A range is a list of clauses, each a list of comparators; a caret and a tilde
are replaced by two bounds, as `semver.ts` does.
-/

namespace DealFlow360.Capabilities

open Doubles Events Spacing

inductive Ident where
  | number (value : WithTop ℚ)
  | text (value : Text)
  deriving DecidableEq

structure ParsedSemver where
  major : WithTop ℚ
  minor : WithTop ℚ
  patch : WithTop ℚ
  prerelease : List Ident
  raw : Text
  deriving DecidableEq

/-! ## Parsing -/

/-- `0|[1-9]\d*`, the whole text. -/
def isNumeral (text : Text) : Bool :=
  text = ['0'.toNat] || (text ≠ [] && text.all isDigit && text.head? ≠ some '0'.toNat)

/-- `Number(text)` of a numeral. -/
def numeralValue (text : Text) : WithTop ℚ := toDouble (digitsValue text)

/-- `[0-9A-Za-z.-]`. -/
def isPrereleaseUnit (unit : ℕ) : Bool :=
  isDigit unit || ('A'.toNat ≤ unit && unit ≤ 'Z'.toNat) || ('a'.toNat ≤ unit && unit ≤ 'z'.toNat) ||
    unit = '.'.toNat || unit = '-'.toNat

def parseIdent (part : Text) : Ident := if isNumeral part then .number (numeralValue part) else .text part

/-- What the pattern finds after the three numerals: nothing, or a dash and a prerelease. -/
def parsePrerelease (rest : Text) : Option (List Ident) :=
  match rest with
  | [] => some []
  | _dash :: prerelease =>
      if prerelease ≠ [] ∧ prerelease.all isPrereleaseUnit then
        some ((splitOn ['.'.toNat] prerelease).map parseIdent)
      else none

/-- No numeral has a dash, so the first one begins the prerelease. -/
def parseSemver (version : Text) : Option ParsedSemver :=
  let raw := trimText version
  let core := raw.takeWhile (· ≠ '-'.toNat)
  match splitOn ['.'.toNat] core, parsePrerelease (raw.dropWhile (· ≠ '-'.toNat)) with
  | [major, minor, patch], some prerelease =>
      if isNumeral major ∧ isNumeral minor ∧ isNumeral patch then
        some { major := numeralValue major, minor := numeralValue minor, patch := numeralValue patch, prerelease, raw }
      else none
  | _, _ => none

/-! ## Comparing -/

/-- The sign of `left - right`. -/
def subtract (left right : WithTop ℚ) : Option Ordering :=
  if left = ⊤ ∧ right = ⊤ then none else some (cmp left right)

def compareStrings (left right : Text) : Ordering :=
  if left < right then .lt else if left > right then .gt else .eq

def comparePrereleaseIdent (left right : Ident) : Option Ordering :=
  match left, right with
  | .number left, .number right => subtract left right
  | .number _, .text _ => some .lt
  | .text _, .number _ => some .gt
  | .text left, .text right => some (compareStrings left right)

/-- The loop over the identifiers, which NaN ends because it is not zero. -/
def comparePrereleases : List Ident → List Ident → Option Ordering
  | [], [] => some .eq
  | [], _ :: _ => some .lt
  | _ :: _, [] => some .gt
  | left :: leftPre, right :: rightPre =>
      match comparePrereleaseIdent left right with
      | some .eq => comparePrereleases leftPre rightPre
      | compared => compared

def compareParsed (left right : ParsedSemver) : Option Ordering :=
  if left.major ≠ right.major then subtract left.major right.major
  else if left.minor ≠ right.minor then subtract left.minor right.minor
  else if left.patch ≠ right.patch then subtract left.patch right.patch
  else if left.prerelease = [] ∧ right.prerelease = [] then some .eq
  else if left.prerelease = [] then some .gt
  else if right.prerelease = [] then some .lt
  else comparePrereleases left.prerelease right.prerelease

/-! ## Ranges -/

inductive Operator where
  | atLeast | atMost | above | below | equal | caret | tilde
  deriving DecidableEq, Repr

/-- The operators in the order in which the pattern tries them. -/
def operators : List (Text × Operator) :=
  [(codeUnits ">=", .atLeast), (codeUnits "<=", .atMost), (codeUnits ">", .above), (codeUnits "<", .below),
    (codeUnits "=", .equal), (codeUnits "^", .caret), (codeUnits "~", .tilde)]

/-- The operator and the bound of a token; something must be left for the bound. -/
def splitOperator (token : Text) : Operator × Text :=
  match operators.find? fun (sign, _) => sign.isPrefixOf token && sign.length < token.length with
  | some (sign, operator) => (operator, token.drop sign.length)
  | none => (.equal, token)

/-- `value + 1`. -/
def next (value : WithTop ℚ) : WithTop ℚ :=
  match value with
  | ⊤ => ⊤
  | (value : ℚ) => toDouble (value + 1)

def caretUpper (bound : ParsedSemver) : ParsedSemver :=
  if 0 < bound.major then { major := next bound.major, minor := 0, patch := 0, prerelease := [], raw := [] }
  else if 0 < bound.minor then { major := 0, minor := next bound.minor, patch := 0, prerelease := [], raw := [] }
  else { major := 0, minor := 0, patch := next bound.patch, prerelease := [], raw := [] }

def tildeUpper (bound : ParsedSemver) : ParsedSemver where
  major := bound.major
  minor := next bound.minor
  patch := 0
  prerelease := []
  raw := []

/-- A comparison with NaN is false. -/
def isOneOf (compared : Option Ordering) (allowed : List Ordering) : Bool := compared.any (· ∈ allowed)

def comparatorSatisfied (version : ParsedSemver) (token : Text) : Bool :=
  if token = ['*'.toNat] then true
  else
    let (operator, rest) := splitOperator token
    let boundRaw := trimText rest
    if boundRaw = ['*'.toNat] then true
    else
      match parseSemver boundRaw with
      | none => false
      | some bound =>
          let compared := compareParsed version bound
          match operator with
          | .caret => isOneOf compared [.gt, .eq] && isOneOf (compareParsed version (caretUpper bound)) [.lt]
          | .tilde => isOneOf compared [.gt, .eq] && isOneOf (compareParsed version (tildeUpper bound)) [.lt]
          | .above => isOneOf compared [.gt]
          | .atLeast => isOneOf compared [.gt, .eq]
          | .below => isOneOf compared [.lt]
          | .atMost => isOneOf compared [.lt, .eq]
          | .equal => isOneOf compared [.eq]

/-- `split(/\s+/)` without empty pieces. -/
def tokens (clause : Text) : List Text := (clause.splitOnP isSpaceUnit).filter (· ≠ [])

def clauseSatisfied (version : ParsedSemver) (clause : Text) : Bool :=
  if clause = [] ∨ clause = ['*'.toNat] then true
  else (tokens clause).all (comparatorSatisfied version)

def satisfiesSemver (version range : Text) : Bool :=
  let trimmed := trimText range
  if trimmed = [] ∨ trimmed = ['*'.toNat] then (parseSemver version).isSome
  else
    match parseSemver version with
    | none => false
    | some parsed => (splitOn (codeUnits "||") trimmed).any fun clause => clauseSatisfied parsed (trimText clause)

example : satisfiesSemver (codeUnits "0.1.5-rc.1") (codeUnits ">=1.0.0 || ^0.1.0  <0.1.5") = true := by decide +kernel

end DealFlow360.Capabilities
