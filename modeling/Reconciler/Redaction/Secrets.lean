import Reconciler.Redaction.Sanitizer
import Reconciler.Value

/-! # Redacting values

Objects handed to the log may hold credentials at any depth. A field whose name says that it is a
credential is replaced as a whole; every other text goes through the sanitizer; the shape and all other
values stay as they are.
-/

namespace Reconciler

/-- The names of fields that hold credentials. -/
def secretFields : List String :=
  ["password", "string_data", "stringData", "data", "token"]

/-- What the value of a secret field is replaced by. -/
def secretMark : Value := .text "***REDACTED***"

mutual

def redactValue : Value → Value
  | .object fields => .object (redactFields fields)
  | .list items => .list (redactItems items)
  | .text s => .text (sanitize s)
  | other => other

def redactItems : List Value → List Value
  | [] => []
  | v :: rest => redactValue v :: redactItems rest

def redactFields : List (String × Value) → List (String × Value)
  | [] => []
  | (k, v) :: rest =>
    (k, if secretFields.contains k then secretMark else redactValue v) :: redactFields rest

end

end Reconciler
