import DealFlow360.Automation.Engine
import DealFlow360.Scheduler.Scheduler
import Mathlib.Data.List.DropRight

/-!
# Event ids

The id of an event that is given none: its type and a key, cut to a length that
is counted in UTF-16 code units. The scheduler's keys are a name and a time,
those of an automation event begin the JSON text of its payload. The text of a
number is given.

Texts are lists of UTF-16 units (`Text`), and so are cuts, lengths and the
search for a character. What `safe` replaces and what `trim` removes are the
classes of the source's expressions. `eventIdFor` cuts the id to 128 units; the
keys of slots and of payloads are cut before, to what the name leaves room for
and to 48 units.
-/

namespace DealFlow360.Events

/-! ## Texts -/

/-- A JavaScript string, by its code units. -/
abbrev Text := List ℕ

/-- The characters of `[a-zA-Z0-9._:-]`. -/
def isSafe (unit : ℕ) : Bool :=
  ('a'.toNat ≤ unit && unit ≤ 'z'.toNat) || ('A'.toNat ≤ unit && unit ≤ 'Z'.toNat) ||
    ('0'.toNat ≤ unit && unit ≤ '9'.toNat) || unit = '.'.toNat || unit = '_'.toNat || unit = ':'.toNat ||
    unit = '-'.toNat

def safeUnit (unit : ℕ) : ℕ := if isSafe unit then unit else '-'.toNat

def eventIdFor (type key : Text) : Text :=
  let safeKey := (key.map safeUnit).take 80
  (type ++ ':'.toNat :: safeKey).take 128

/-- The white space and the line ends of `trim`. -/
def isSpaceUnit (unit : ℕ) : Bool :=
  decide (unit ∈ [0x9, 0xA, 0xB, 0xC, 0xD, 0x20, 0xA0, 0x1680, 0x2028, 0x2029, 0x202F, 0x205F, 0x3000, 0xFEFF]) ||
    decide (0x2000 ≤ unit ∧ unit ≤ 0x200A)

def trimText (text : Text) : Text := (text.dropWhile isSpaceUnit).rdropWhile isSpaceUnit

/-- A text without white space is trimmed. -/
theorem trimText_of_inked {text : Text} (h : ∀ unit ∈ text, isSpaceUnit unit = false) : trimText text = text := by
  have hspace : ∀ unit ∈ text, ¬isSpaceUnit unit = true := fun unit hunit => by
    rw [h unit hunit]
    exact Bool.false_ne_true
  unfold trimText
  rw [List.dropWhile_eq_self_iff.mpr fun hlength => hspace _ (List.getElem_mem _)]
  exact List.rdropWhile_eq_self_iff.mpr fun hne => hspace _ (List.getLast_mem hne)

/-- The id that `emit` gives an event which comes with one; `uuid` is what `randomUUID` answers. -/
def emittedId (id uuid : Text) : Text := if trimText id = [] then uuid else trimText id

/-! ## Times -/

/-- A number with so many decimal digits, the last ones if it has more. -/
def decimal (width n : ℕ) : Text :=
  (List.range width).reverse.map fun place => '0'.toNat + n / 10 ^ place % 10

structure CalendarDate where
  year : ℕ
  month : ℕ
  day : ℕ
  deriving DecidableEq, Repr

/-- The date of a day since 1970. The years are counted from March, in eras of 400 years. -/
def calendarDate (days : ℕ) : CalendarDate :=
  let shifted := days + 719468
  let era := shifted / 146097
  let dayOfEra := shifted % 146097
  let yearOfEra := (dayOfEra - dayOfEra / 1460 + dayOfEra / 36524 - dayOfEra / 146096) / 365
  let dayOfYear := dayOfEra - (365 * yearOfEra + yearOfEra / 4 - yearOfEra / 100)
  let shiftedMonth := (5 * dayOfYear + 2) / 153
  let month := if shiftedMonth < 10 then shiftedMonth + 3 else shiftedMonth - 9
  { year := yearOfEra + era * 400 + if month ≤ 2 then 1 else 0
    month
    day := dayOfYear - (153 * shiftedMonth + 2) / 5 + 1 }

def yearText (year : ℕ) : Text := if year < 10000 then decimal 4 year else '+'.toNat :: decimal 6 year

/-- What follows the year. -/
def afterYear (time : Timestamp) : Text :=
  let date := calendarDate (time / 86400000)
  let ms := time % 86400000
  '-'.toNat :: decimal 2 date.month ++ '-'.toNat :: decimal 2 date.day ++ 'T'.toNat :: decimal 2 (ms / 3600000) ++
    ':'.toNat :: decimal 2 (ms / 60000 % 60) ++ ':'.toNat :: decimal 2 (ms / 1000 % 60) ++
    '.'.toNat :: decimal 3 (ms % 1000) ++ ['Z'.toNat]

/-- `toISOString`. -/
def toISOString (time : Timestamp) : Text := yearText (calendarDate (time / 86400000)).year ++ afterYear time

example : toISOString 951782400000 = codeUnits "2000-02-29T00:00:00.000Z" := by decide

/-! ## The scheduler's events -/

open Scheduler in
/-- The key of a slot. -/
def slotKey (schedule : RegisteredSchedule) (slot : Timestamp) : Text :=
  codeUnits schedule.name ++ ':'.toNat :: toISOString slot

open Scheduler in
/-- The id of the event that `tick` emits for a slot. -/
def tickId (schedule : RegisteredSchedule) (slot : Timestamp) (uuid : Text) : Text :=
  emittedId (eventIdFor (codeUnits schedule.trigger) (slotKey schedule slot)) uuid

/-! ## The events of the automation service -/

/-- `automationTriggerNameSchema`, of a trigger that is trimmed. -/
def isTriggerName (trigger : String) : Bool :=
  decide (2 ≤ trigger.length ∧ trigger.length ≤ 64) &&
    match trigger.toList with
    | [] => false
    | first :: rest => isLower first && rest.all fun c =>
        isLower c || ('0' ≤ c && c ≤ '9') || c = '.' || c = '_' || c = '-'
where
  isLower (c : Char) : Bool := 'a' ≤ c && c ≤ 'z'

def hexDigit (n : ℕ) : ℕ := if n < 10 then '0'.toNat + n else 'a'.toNat + (n - 10)

def quoteMark : ℕ := 0x22

def backslash : ℕ := 0x5C

/-- A code unit inside a JSON string. -/
def quotedUnit (unit : ℕ) : Text :=
  if unit = quoteMark ∨ unit = backslash then [backslash, unit]
  else if unit = 0x8 then [backslash, 'b'.toNat]
  else if unit = 0xC then [backslash, 'f'.toNat]
  else if unit = 0xA then [backslash, 'n'.toNat]
  else if unit = 0xD then [backslash, 'r'.toNat]
  else if unit = 0x9 then [backslash, 't'.toNat]
  else if unit < 0x20 then
    [backslash, 'u'.toNat, '0'.toNat, '0'.toNat, hexDigit (unit / 16), hexDigit (unit % 16)]
  else [unit]

def quoted (s : String) : Text := quoteMark :: (codeUnits s).flatMap quotedUnit ++ [quoteMark]

/-- Texts with commas between them. -/
def commaSeparated : List Text → Text
  | [] => []
  | [text] => text
  | text :: texts => text ++ ','.toNat :: commaSeparated texts

open Automation

/-- `JSON.stringify` of a value that is parsed JSON; a function is `undefined` in it. -/
def stringify (numberText : Num → Text) : Json → Text
  | .null => codeUnits "null"
  | .bool b => codeUnits (if b then "true" else "false")
  | .num x => numberText x
  | .str s => quoted s
  | .array items => '['.toNat :: commaSeparated (stringifyItems items) ++ [']'.toNat]
  | .object fields => 0x7B :: commaSeparated (stringifyFields fields) ++ [0x7D]
  | .inherited _ => []
where
  stringifyItems : List Json → List Text
    | [] => []
    | item :: items => stringify numberText item :: stringifyItems items
  stringifyFields : List (String × Json) → List Text
    | [] => []
    | (name, value) :: fields => (quoted name ++ ':'.toNat :: stringify numberText value) :: stringifyFields fields

/-- What the key of an automation event without an id is: the first 48 code units of its payload's text. -/
def payloadKey (numberText : Num → Text) (payload : Payload) : Text := (stringify numberText (.object payload)).take 48

/-- The id of an event that `emitEvent` is given none for. -/
def emitEventId (numberText : Num → Text) (trigger : String) (payload : Payload) (uuid : Text) : Text :=
  emittedId (eventIdFor (codeUnits trigger) (payloadKey numberText payload)) uuid

end DealFlow360.Events
