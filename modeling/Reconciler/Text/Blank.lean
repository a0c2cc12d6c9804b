/-! # Blank characters

What counts as white space when a descriptor or a number is read, and between a credential's name
and its value when a message is sanitized.
-/

namespace Reconciler

def blank (c : Char) : Bool :=
  let code := c.toNat
  (0x09 ≤ code && code ≤ 0x0D) || (0x1C ≤ code && code ≤ 0x20) || code == 0x85 || code == 0xA0
    || code == 0x1680 || (0x2000 ≤ code && code ≤ 0x200A) || code == 0x2028 || code == 0x2029
    || code == 0x202F || code == 0x205F || code == 0x3000

/-- Removes the characters of a class at the end of a text. -/
def trimEnd (ok : Char → Bool) : List Char → List Char
  | [] => []
  | c :: rest => match trimEnd ok rest with
    | [] => if ok c then [] else [c]
    | kept => c :: kept

/-- Removes the characters of a class at both ends of a text. -/
def trimBy (ok : Char → Bool) (s : List Char) : List Char :=
  trimEnd ok (s.dropWhile ok)

/-- Removes the white space at both ends of a text. -/
def trim (s : List Char) : List Char :=
  trimBy blank s

end Reconciler
