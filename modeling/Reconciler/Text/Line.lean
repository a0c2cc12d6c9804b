import Reconciler.Value
import Reconciler.Text.Quoted
import Reconciler.Text.Decimal

/-! # Values on one line

The printed form of a log record: JSON on one line, with `", "` between items and `": "` after a field
name, in ASCII. A character beyond ASCII is written as `\uNNNN`, or as two such surrogate halves when
its code point does not fit.
-/

namespace Reconciler.Line

/-- `\uNNNN` for one 16-bit unit. -/
def unit (n : Nat) : List Char :=
  '\\' :: 'u' :: hexDigits n 4

/-- A character inside a JSON string. -/
def escape (c : Char) : List Char :=
  if c = '"' || c = '\\' then ['\\', c]
  else if c = '\n' then ['\\', 'n']
  else if c = '\r' then ['\\', 'r']
  else if c = '\t' then ['\\', 't']
  else if c.toNat = 0x08 then ['\\', 'b']
  else if c.toNat = 0x0C then ['\\', 'f']
  else if 0x20 ≤ c.toNat && c.toNat < 0x7F then [c]
  else if c.toNat < 0x10000 then unit c.toNat
  else
    let rest := c.toNat - 0x10000
    unit (0xD800 + rest / 0x400) ++ unit (0xDC00 + rest % 0x400)

def string (s : String) : String :=
  String.ofList ('"' :: s.toList.flatMap escape ++ ['"'])

def real (x : Binary64) : String :=
  if x.infinite then (if x.negative then "-Infinity" else "Infinity") else x.shown

mutual

/-- A value as JSON on one line. -/
def print : Value → String
  | .null => "null"
  | .bool true => "true"
  | .bool false => "false"
  | .integer n => toString n
  | .real x => real x
  | .text s => string s
  | .list items => "[" ++ ", ".intercalate (printItems items) ++ "]"
  | .object fields => "\x7b" ++ ", ".intercalate (printFields fields) ++ "\x7d"

def printItems : List Value → List String
  | [] => []
  | v :: rest => print v :: printItems rest

def printFields : List (String × Value) → List String
  | [] => []
  | (k, v) :: rest => (string k ++ ": " ++ print v) :: printFields rest

end

end Reconciler.Line
