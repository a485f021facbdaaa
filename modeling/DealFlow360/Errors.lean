import DealFlow360.Types

/-!
# Domain errors

What a refused request throws: a code, the text shown to the caller and the
details recorded with it. `internal` stands for the plain `Error`s the store
and the email module throw.

The codes are those of the error class, with the details as key and value.
Validation errors carry the field and the message of the check that failed
first, in the order of the schema.
-/

namespace DealFlow360

inductive ErrorCode where
  | notFound | conflict | forbidden | invalid | internal
  deriving DecidableEq, Repr

/-- A value in the details of an error. -/
inductive Detail where
  | text (s : String)
  | num (x : Num)
  | id (i : Id)
  | texts (l : List String)
  | missing
  deriving DecidableEq, Repr

structure DomainError where
  code : ErrorCode
  message : String
  details : List (String × Detail) := []
  deriving DecidableEq, Repr

abbrev Details := List (String × Detail)

def notFound (message : String) (details : Details := []) : DomainError :=
  { code := .notFound, message, details }

def conflict (message : String) (details : Details := []) : DomainError :=
  { code := .conflict, message, details }

def forbidden (message : String) (details : Details := []) : DomainError :=
  { code := .forbidden, message, details }

def invalid (message : String) (details : Details := []) : DomainError :=
  { code := .invalid, message, details }

def internal (message : String) : DomainError :=
  { code := .internal, message }

/-! ## Validation -/

structure ValidationIssue where
  path : String
  message : String
  code : String
  deriving DecidableEq, Repr

/-- A `ValidationError` of the integrations, with its issues. -/
structure ValidationError where
  message : String
  issues : List ValidationIssue
  deriving DecidableEq, Repr

end DealFlow360
