import DealFlow360.Errors
import DealFlow360.JsonText
import DealFlow360.Lib.Markers

/-!
# The JSON of a model's answer

`ai.json.ts`: the answer is parsed as it is or as what is in its first code
fence, and if that is no JSON text, from the first bracket of it to the last
one.

`extractJson` answers the value, or one of the two errors of the source: no
JSON at all, or a text that does not parse. The fence is found by the marker
search of `Lib.Markers`, the tag behind it is dropped as the regular expression
drops it, and the slice runs from the first opening bracket to the last closing
one, as the source finds them.

What comes out of an answer is proved in the module after this one; here are
only the functions, on texts of UTF-16 units.
-/

namespace DealFlow360.Ai

open Events (Text isSpaceUnit trimText)
open Markers (cut)

def malformedJsonError : ValidationError where
  message := "AI returned malformed JSON"
  issues := [{ path := "ai", message := "The model did not return valid JSON", code := "invalid_json" }]

def codeFence : Text := codeUnits "```"

def asciiLower (unit : ℕ) : ℕ := if 'A'.toNat ≤ unit ∧ unit ≤ 'Z'.toNat then unit + 32 else unit

/-- `(?:json)?`, in upper or lower case. -/
def dropJsonTag (text : Text) : Text :=
  if (text.take 4).map asciiLower = codeUnits "json" then text.drop 4 else text

/-- The group of `/```(?:json)?\s*([\s\S]*?)```/i`. -/
def fencedText (text : Text) : Option Text := do
  let (_, opened) ← cut codeFence text
  let (inner, _) ← cut codeFence ((dropJsonTag opened).dropWhile isSpaceUnit)
  some inner

def unwrapJsonCandidate (text : Text) : Except ValidationError Text :=
  let trimmed := trimText text
  if trimmed = [] then .error malformedJsonError else .ok (trimText ((fencedText trimmed).getD trimmed))

def isOpenBracket (unit : ℕ) : Bool := unit = '{'.toNat || unit = '['.toNat

def isCloseBracket (unit : ℕ) : Bool := unit = '}'.toNat || unit = ']'.toNat

/-- The slice from the first opening bracket to the last closing one. -/
def sliceJsonObject (text : Text) : Option Text :=
  let slice := (text.dropWhile (!isOpenBracket ·)).rdropWhile (!isCloseBracket ·)
  if slice = [] then none else some slice

def extractJson (text : Text) : Except ValidationError JsonTree := do
  let candidate ← unwrapJsonCandidate text
  match jsonParse candidate with
  | some value => .ok value
  | none =>
      match sliceJsonObject candidate with
      | some sliced =>
          match jsonParse sliced with
          | some value => .ok value
          | none => .error malformedJsonError
      | none => .error malformedJsonError

end DealFlow360.Ai
