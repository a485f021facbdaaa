import DealFlow360.Js

/-!
# Redaction

What `sanitizeErrorDetails` makes of a JSON value: the values of sensitive
keys, file paths and secrets inside a text are replaced, and every text is
trimmed. A key `__proto__` is written to the prototype, where no encoder finds
it.

A value that was read from JSON is more than a JSON text can say of it: `1e400`
is read as an infinity and `-0` as the negative zero, and a text written again
has `null` and `0` for them. `stringify` and `parse` go from a value to what
its text says and back.

Which keys are sensitive and what a path or a secret looks like is said here as
the regular expressions say it. The theorem about confirmed actions compares
the redacted arguments with the planned ones; a path under an ordinary key is
enough to tell them apart.
-/

namespace DealFlow360

inductive JsonNumber where
  | finite (value : Num)
  | negativeZero
  | infinite (negative : Bool)
  | nan
  deriving DecidableEq

/-- A JavaScript value without functions and `undefined`. -/
inductive JsonValue where
  | null
  | boolean (value : Bool)
  | number (value : JsonNumber)
  | string (value : String)
  | array (items : List JsonValue)
  | object (fields : List (String × JsonValue))

/-! ## JSON texts -/

/-- What a JSON text says; its numbers are those that a finite double is written as. -/
inductive JsonDocument where
  | null
  | boolean (value : Bool)
  | number (value : Num)
  | string (value : String)
  | array (items : List JsonDocument)
  | object (fields : List (String × JsonDocument))

mutual

/-- `JSON.stringify`. -/
def JsonValue.stringify : JsonValue → JsonDocument
  | .null | .number (.infinite _) | .number .nan => .null
  | .boolean value => .boolean value
  | .number (.finite value) => .number value
  | .number .negativeZero => .number 0
  | .string value => .string value
  | .array items => .array (stringifyItems items)
  | .object fields => .object (stringifyFields fields)

def stringifyItems : List JsonValue → List JsonDocument
  | [] => []
  | item :: items => item.stringify :: stringifyItems items

def stringifyFields : List (String × JsonValue) → List (String × JsonDocument)
  | [] => []
  | (key, value) :: fields => (key, value.stringify) :: stringifyFields fields

end

mutual

/-- `JSON.parse`. -/
def JsonDocument.parse : JsonDocument → JsonValue
  | .null => .null
  | .boolean value => .boolean value
  | .number value => .number (.finite value)
  | .string value => .string value
  | .array items => .array (parseItems items)
  | .object fields => .object (parseFields fields)

def parseItems : List JsonDocument → List JsonValue
  | [] => []
  | item :: items => item.parse :: parseItems items

def parseFields : List (String × JsonDocument) → List (String × JsonValue)
  | [] => []
  | (key, value) :: fields => (key, value.parse) :: parseFields fields

end

example : (JsonValue.array [.number (.infinite false), .number .negativeZero]).stringify.parse =
    .array [.null, .number (.finite 0)] := rfl

namespace Copilot

/-! ## Texts -/

/-- `replace` with a global pattern, given as the rest after a match at the front; a match is not empty. -/
def replaceAll (rest? : List Char → Option (List Char)) (text : List Char) : ℕ → List Char → List Char
  | 0, chars => chars
  | _ + 1, [] => []
  | fuel + 1, c :: chars =>
      match rest? (c :: chars) with
      | some rest => text ++ replaceAll rest? text fuel rest
      | none => c :: replaceAll rest? text fuel chars

def replaceText (rest? : List Char → Option (List Char)) (text value : String) : String :=
  String.ofList (replaceAll rest? text.toList value.length value.toList)

def stripPrefix : List Char → List Char → Option (List Char)
  | [], chars => some chars
  | _ :: _, [] => none
  | c :: cs, d :: ds => if c = d then stripPrefix cs ds else none

/-- The rest after one or more characters of a kind. -/
def takeSome (kind : Char → Bool) : List Char → Option (List Char)
  | [] => none
  | c :: chars => if kind c then some (chars.dropWhile kind) else none

/-- The three quotation marks, by their code points. -/
def quoteCodes : List ℕ := [0x22, 0x27, 0x60]

def directories : List String := ["home", "Users", "var", "tmp", "opt", "etc", "usr", "app", "src"]

/-- `FILE_PATH_PATTERN`. -/
def filePath : List Char → Option (List Char)
  | '/' :: chars =>
      directories.findSome? fun directory =>
        (stripPrefix (directory ++ "/").toList chars).bind (takeSome pathChar)
  | drive :: ':' :: '\\' :: chars => if drive.isAlpha then takeSome pathChar chars else none
  | _ => none
where
  pathChar (c : Char) : Bool := !trim.isSpace c && c.toNat ∉ quoteCodes

def secretWords : List String :=
  ["apikey", "api_key", "api-key", "secret", "password", "token", "bearer"]

/-- `SECRET_VALUE_PATTERN`. -/
def secretValue (chars : List Char) : Option (List Char) :=
  secretWords.findSome? fun word =>
    (stripPrefix word.toList (chars.take word.length |>.map Char.toLower)).bind fun _ =>
      match (chars.drop word.length).dropWhile trim.isSpace with
      | sign :: rest =>
          if sign = ':' ∨ sign = '=' then takeSome valueChar (unquoted (rest.dropWhile trim.isSpace)) else none
      | [] => none
where
  valueChar (c : Char) : Bool := !trim.isSpace c && c.toNat ∉ [0x22, 0x27]
  unquoted : List Char → List Char
    | c :: rest => if c.toNat ∈ [0x22, 0x27] then rest else c :: rest
    | [] => []

def sanitizeErrorMessage (message : String) : String :=
  trim (replaceText secretValue "[Redacted]" (replaceText filePath "[path]" message))

/-! ## Values -/

/-- `SENSITIVE_KEY`. -/
def sensitiveKeys : List String :=
  ["password", "passwordhash", "passwd", "secret", "token", "accesstoken", "refreshtoken", "authorization", "apikey",
    "api_key", "credential", "connectionstring", "databaseurl", "privatekey", "jwt", "otp", "otpcode", "codehash"]

mutual

/-- `sanitizeErrorDetails`. -/
def sanitizeErrorDetails : JsonValue → JsonValue
  | .array items => .array (sanitizeItems items)
  | .object fields => .object (sanitizeFields fields)
  | .string value => .string (sanitizeErrorMessage value)
  | .null => .null
  | .boolean value => .boolean value
  | .number value => .number value

def sanitizeItems : List JsonValue → List JsonValue
  | [] => []
  | item :: items => sanitizeErrorDetails item :: sanitizeItems items

def sanitizeFields : List (String × JsonValue) → List (String × JsonValue)
  | [] => []
  | (key, value) :: fields =>
      if key = "__proto__" then sanitizeFields fields
      else if key.toLower ∈ sensitiveKeys then (key, .string "[Redacted]") :: sanitizeFields fields
      else (key, sanitizeErrorDetails value) :: sanitizeFields fields

end

abbrev Arguments := List (String × JsonValue)

/-- `redactSensitiveValue` of a record of arguments. -/
def redactArguments (arguments : Arguments) : Arguments := sanitizeFields arguments

end Copilot

end DealFlow360
