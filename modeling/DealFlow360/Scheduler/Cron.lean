import DealFlow360.Dates
import DealFlow360.Lib.Spacing
import DealFlow360.Numerals

/-!
# Cron expressions

`cron.ts`: the check of an expression with five fields, and whether it matches
a time. Every number is read with `Number`, so what is no integer is refused
here and does not match there.

`splitCron` cuts the expression at white space, `assertValidCron` checks each
part of each field against its bounds, and `matchesCron` compares the fields of
a time in UTC. A part is read in the order of the source: the step behind a
slash, then a star, a range, or a number. The errors name the expression, as
the source's do.
-/

namespace DealFlow360.Scheduler

open Events (Text isSpaceUnit trimText)

inductive CronError where
  | fieldCount
  | invalidField (field expression : Text)
  deriving DecidableEq, Repr

structure CronRange where
  min : ℤ
  max : ℤ
  deriving DecidableEq, Repr

/-- `RANGES`: minute, hour, day, month and weekday. -/
def ranges : List CronRange := [⟨0, 59⟩, ⟨0, 23⟩, ⟨1, 31⟩, ⟨1, 12⟩, ⟨0, 7⟩]

/-- `split(/\s+/)` of a trimmed text. -/
def splitSpaces (text : Text) : List Text := if text = [] then [[]] else Spacing.words isSpaceUnit text

def splitCron (expression : Text) : Except CronError (List Text) :=
  let parts := splitSpaces (trimText expression)
  if parts.length ≠ 5 then .error .fieldCount else .ok parts

/-! ## Items of a list -/

/-- What comes before the first slash, and what comes after it. -/
def splitStep (part : Text) : Text × Option Text :=
  match part.dropWhile (· ≠ '/'.toNat) with
  | [] => (part, none)
  | _slash :: stepRaw => (part.takeWhile (· ≠ '/'.toNat), some stepRaw)

def star : Text := ['*'.toNat]

/-- What `isValidListItem` asks of the part before the step. -/
def isValidRange (range : Text) (min max : ℤ) : Bool :=
  if range = star then true
  else if range.contains '-'.toNat then
    match range.splitOn '-'.toNat with
    | [first, last] =>
        match integerOf first, integerOf last with
        | some start, some finish => start ≥ min && finish ≤ max && start ≤ finish
        | _, _ => false
    | _ => false
  else (integerOf range).any fun value => value ≥ min && value ≤ max

def isValidListItem (part : Text) (min max : ℤ) : Bool :=
  let (range, stepRaw) := splitStep part
  let stepOk := match stepRaw with
    | none => true
    | some stepRaw => (integerOf stepRaw).any (1 ≤ ·)
  if !stepOk then false else isValidRange range min max

/-- The first and the last number of an item, if both are integers. -/
def itemBounds (range : Text) (min max : ℤ) : Option (ℤ × ℤ) :=
  if range = star then some (min, max)
  else if range.contains '-'.toNat then
    match range.splitOn '-'.toNat with
    | [first, last] => do return (← integerOf first, ← integerOf last)
    | _ => none
  else (integerOf range).map fun value => (value, value)

def listItemMatches (part : Text) (value min max : ℤ) : Bool :=
  let (range, stepRaw) := splitStep part
  let step := match stepRaw with
    | none => some 1
    | some stepRaw => (integerOf stepRaw).filter (1 ≤ ·)
  match step, itemBounds range min max with
  | some step, some (start, finish) =>
      if start < min ∨ finish > max ∨ start > finish then false
      else if value < start ∨ value > finish then false
      else (value - start) % step = 0
  | _, _ => false

/-! ## Fields -/

def isValidField (expr : Text) (range : CronRange) : Bool :=
  expr = star || (expr.splitOn ','.toNat).all (isValidListItem · range.min range.max)

def fieldMatches (expr : Text) (value : ℤ) (range : CronRange) : Bool :=
  expr = star || (expr.splitOn ','.toNat).any (listItemMatches · value range.min range.max)

def matchesDayOfWeek (expr : Text) (dow : ℤ) : Bool :=
  fieldMatches expr dow ⟨0, 7⟩ || (dow = 0 && fieldMatches expr 7 ⟨0, 7⟩)

/-- The loop of `assertValidCron`; the answer has one space between the fields. -/
def checkFields (expression : Text) (parts : List Text) : Except CronError Text :=
  match (parts.zip ranges).find? fun field => !isValidField field.1 field.2 with
  | some (part, _) => .error (.invalidField part expression)
  | none => .ok ([' '.toNat].intercalate parts)

def assertValidCron (expression : Text) : Except CronError Text :=
  splitCron expression >>= checkFields expression

def matchFields (date : ℤ) (parts : List Text) : Except CronError Bool :=
  match parts with
  | [minute, hour, day, month, weekday] =>
      .ok (fieldMatches minute (Dates.getUTCMinutes date) ⟨0, 59⟩ &&
        fieldMatches hour (Dates.getUTCHours date) ⟨0, 23⟩ &&
        fieldMatches day (Dates.civil date).day ⟨1, 31⟩ && fieldMatches month (Dates.civil date).month ⟨1, 12⟩ &&
        matchesDayOfWeek weekday (Dates.getUTCDay date))
  | _ => .error .fieldCount

def matchesCron (expression : Text) (date : ℤ) : Except CronError Bool :=
  splitCron expression >>= matchFields date

example : matchesCron (codeUnits "0,30 9-17/4 * * 7") 1756026000000 = .ok true := by decide +kernel

end DealFlow360.Scheduler
