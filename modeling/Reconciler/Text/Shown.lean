import Reconciler.Value
import Reconciler.Text.Quoted
import Reconciler.Text.Decimal

/-! # Values inside messages

A value takes part in a message either shown, where a text stands for itself, or quoted, where a text
is in quotes. Everything else looks the same both ways, and whatever is inside a list or an object is
quoted.
-/

namespace Reconciler.Value

mutual

/-- A value in quotes. -/
def quoted : Value → String
  | .null => "None"
  | .bool true => "True"
  | .bool false => "False"
  | .integer n => toString n
  | .real x => x.shown
  | .text s => Reconciler.quoted s
  | .list items => "[" ++ ", ".intercalate (quotedItems items) ++ "]"
  | .object fields => "\x7b" ++ ", ".intercalate (quotedFields fields) ++ "\x7d"

/-- The items of a list, each quoted. -/
def quotedItems : List Value → List String
  | [] => []
  | v :: rest => quoted v :: quotedItems rest

/-- The fields of an object, names and values quoted. -/
def quotedFields : List (String × Value) → List String
  | [] => []
  | (k, v) :: rest => (Reconciler.quoted k ++ ": " ++ quoted v) :: quotedFields rest

end

/-- A value as part of a sentence. -/
def shown : Value → String
  | .text s => s
  | other => other.quoted

end Reconciler.Value
