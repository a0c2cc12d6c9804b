import Reconciler.Text.Blank
import Reconciler.Text.Quoted

/-! # Reading whole numbers

Whole numbers in the environment may be written in the decimal digits of any script, with a sign,
with single underscores between digits, and with white space around them.
-/

namespace Reconciler.Digits

/-- The zeros of the decimal digit runs of Unicode 14, in ascending order. Each starts a run of ten
consecutive code points. -/
def zeros : List Nat := [
  0x30, 0x660, 0x6F0, 0x7C0, 0x966, 0x9E6, 0xA66, 0xAE6, 0xB66, 0xBE6, 0xC66, 0xCE6, 0xD66, 0xDE6,
  0xE50, 0xED0, 0xF20, 0x1040, 0x1090, 0x17E0, 0x1810, 0x1946, 0x19D0, 0x1A80, 0x1A90, 0x1B50,
  0x1BB0, 0x1C40, 0x1C50, 0xA620, 0xA8D0, 0xA900, 0xA9D0, 0xA9F0, 0xAA50, 0xABF0, 0xFF10, 0x104A0,
  0x10D30, 0x11066, 0x110F0, 0x11136, 0x111D0, 0x112F0, 0x11450, 0x114D0, 0x11650, 0x116C0, 0x11730,
  0x118E0, 0x11950, 0x11C50, 0x11D50, 0x11DA0, 0x16A60, 0x16AC0, 0x16B50, 0x1D7CE, 0x1D7D8, 0x1D7E2,
  0x1D7EC, 0x1D7F6, 0x1E140, 0x1E2F0, 0x1E950, 0x1FBF0]

/-- The digit a code point stands for, given the zeros to look among. -/
def digitAmong (code : Nat) : List Nat → Option Nat
  | [] => none
  | first :: rest =>
    if first ≤ code && code < first + 10 then some (code - first) else digitAmong code rest

/-- The digit a character stands for. -/
def digit? (c : Char) : Option Nat :=
  digitAmong c.toNat zeros

/-- Goes through the digits at the start of a text; `digits` are those before it, the last one first.
What is found is all digits, first one first, and what follows them. Single underscores between digits
are left out; any other underscore is refused. -/
def run (digits : List Nat) : List Char → Option (List Nat × List Char)
  | [] => some (digits.reverse, [])
  | '_' :: c :: rest =>
    if digits.isEmpty then none
    else match digit? c with
      | some d => run (d :: digits) rest
      | none => none
  | c :: rest => match digit? c with
    | some d => run (d :: digits) rest
    | none => if c = '_' then none else some (digits.reverse, c :: rest)

/-- The number written by decimal digits. -/
def value (digits : List Nat) : Nat :=
  digits.foldl (fun total d => 10 * total + d) 0

/-- The most digits that a number may have. -/
def limit : Nat := 4300

/-- Why a text is no whole number. -/
inductive Refusal where
  | malformed
  | tooLong (digits : Nat)
deriving DecidableEq, Repr

/-- Reads digits to the end of a text. A number that is too long is refused as such, whatever follows
it. -/
def natural (text : List Char) : Except Refusal Nat :=
  match run [] text with
  | none => .error .malformed
  | some (digits, rest) =>
    if limit < digits.length then .error (.tooLong digits.length)
    else if digits.isEmpty || !rest.isEmpty then .error .malformed
    else .ok (value digits)

/-- White space around a number. The four ASCII separators U+001C to U+001F do not count. -/
def around (c : Char) : Bool :=
  blank c && !(0x1C ≤ c.toNat && c.toNat ≤ 0x1F)

/-- Reads a whole number: white space, an optional sign, digits, white space. -/
def integer (s : String) : Except Refusal Int :=
  match trimBy around s.toList with
  | '-' :: rest => (natural rest).map fun n => -(n : Int)
  | '+' :: rest => (natural rest).map fun n => (n : Int)
  | rest => (natural rest).map fun n => (n : Int)

/-- What is said about a text that is no whole number. The text is quoted and cut to 200 characters. -/
def Refusal.message (text : String) : Refusal → String
  | .malformed =>
    s!"invalid literal for int() with base 10: {String.ofList ((quoted text).toList.take 200)}"
  | .tooLong digits =>
    s!"Exceeds the limit ({limit} digits) for integer string conversion: value has {digits} digits; "
      ++ "use sys.set_int_max_str_digits() to increase the limit"

end Reconciler.Digits
