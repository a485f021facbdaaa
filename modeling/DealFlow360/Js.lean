import DealFlow360.Lib.Top
import Mathlib.Data.Rat.Floor

/-!
# The JavaScript the engines lean on

Amounts, quantities and percentages are rationals. Where the sums of the
platform's doubles decide what happens, the engines take the rounding of a
result as a parameter: with `Doubles.double` they compute as the platform does,
with `id` exactly; elsewhere the arithmetic is the source's without the
rounding of binary floats. Identifiers stand for the UUIDs of
`crypto.randomUUID` and for portal tokens, timestamps for the milliseconds
behind an ISO string.

`sortBy` is the platform's stable sort by a comparison. Where the comparison is
that of a score, the sort is the ranking of `Lib.Top` (`sortBy_eq_ranked`), so
the engines that take the first entry of a sorted list are about maxima.
`round` is the helper of the source, to a number of places and away from zero
at a half.
-/

namespace DealFlow360

abbrev Num := ℚ
abbrev Id := ℕ
abbrev Timestamp := ℕ

/-- What the result of an arithmetic operation is rounded to. -/
abbrev Rounding := Num → Num

/-- `Math.round`: the nearest integer, halves upwards. -/
def mathRound (x : Num) : Num := ⌊x + 1 / 2⌋

/-- `round(value, digits)` of the pricing and discount engines. -/
def round (value : Num) (digits : ℕ := 4) : Num :=
  mathRound (value * 10 ^ digits) / 10 ^ digits

/-- A JSON value that holds no others. -/
inductive JsonScalar where
  | string (value : String)
  | number (value : Num)
  | boolean (value : Bool)
  | null
  deriving DecidableEq, Repr

def clamp (value low high : Num) : Num := min high (max low value)

/-- `Array.prototype.sort` with a comparator: stable, negative means `a` first. -/
def sortBy {α : Type*} (compare : α → α → Num) (l : List α) : List α :=
  l.insertionSort fun a b => compare a b ≤ 0

/-- `String.prototype.trim`. -/
def trim (s : String) : String :=
  String.ofList (((s.toList.dropWhile isSpace).reverse.dropWhile isSpace).reverse)
where
  isSpace (c : Char) : Bool :=
    decide (c.toNat ∈ [0x9, 0xA, 0xB, 0xC, 0xD, 0x20, 0xA0, 0x1680, 0x2028, 0x2029, 0x202F, 0x205F,
      0x3000, 0xFEFF]) || decide (0x2000 ≤ c.toNat ∧ c.toNat ≤ 0x200A)

/-- `String.prototype.padStart`. -/
def padStart (s : String) (width : ℕ) (fill : Char) : String :=
  String.ofList (List.replicate (width - s.length) fill ++ s.toList)

/-- The UTF-16 code units of a string, which JavaScript counts and compares. -/
def codeUnits (s : String) : List ℕ :=
  s.toList.flatMap units
where
  units (c : Char) : List ℕ :=
    if c.toNat < 0x10000 then [c.toNat]
    else [0xD800 + (c.toNat - 0x10000) / 0x400, 0xDC00 + (c.toNat - 0x10000) % 0x400]

/-- The decimal text of a number with at most `digits` places after the point. -/
def fixedText (digits : ℕ) (x : Num) : String :=
  let scaled := ⌊|x| * 10 ^ digits + 1 / 2⌋.toNat
  let whole := toString (scaled / 10 ^ digits)
  let places := padStart (toString (scaled % 10 ^ digits)) digits '0'
  let sign := if x < 0 ∧ scaled ≠ 0 then "-" else ""
  if digits = 0 then sign ++ whole else sign ++ whole ++ "." ++ places

/-- A number inside a template string: its decimals without trailing zeros. Every number the
messages show is an input or comes from `round`, so sixteen places write it out in full. -/
def numText (x : Num) : String :=
  let text := (fixedText 16 x).toList.reverse.dropWhile (· == '0')
  String.ofList (text.dropWhile (· == '.')).reverse

example : numText (25 / 2) = "12.5" := by decide +kernel

/-- Sorting only permutes. -/
theorem sortBy_perm {α : Type*} (compare : α → α → Num) (l : List α) :
    (sortBy compare l).Perm l :=
  List.perm_insertionSort _ _

theorem mem_sortBy {α : Type*} {compare : α → α → Num} {l : List α} {a : α} :
    a ∈ sortBy compare l ↔ a ∈ l :=
  (sortBy_perm compare l).mem_iff

@[simp] theorem length_sortBy {α : Type*} (compare : α → α → Num) (l : List α) :
    (sortBy compare l).length = l.length :=
  (sortBy_perm compare l).length_eq

/-- A comparator that puts higher scores first ranks. -/
theorem sortBy_eq_ranked {α σ : Type*} [LinearOrder σ] {compare : α → α → Num} {score : α → σ}
    (h : ∀ a b, compare a b ≤ 0 ↔ score b ≤ score a) (l : List α) : sortBy compare l = Top.ranked score l :=
  Top.insertionSort_congr h l

end DealFlow360
