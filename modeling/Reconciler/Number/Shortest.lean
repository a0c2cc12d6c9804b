import Reconciler.Number.Binary64

/-! # Shortest decimals

A number of double precision is written with the fewest decimal digits that read back as the same
number. Of two decimals with that many digits the one nearer to the number is taken, and the even one
when both are equally near.
-/

namespace Reconciler

/-- The number `digits * 10 ^ exponent`. -/
structure Decimal where
  digits : Nat
  exponent : Int
deriving DecidableEq, Repr

/-- The number of decimal digits of a natural number. -/
def digitCount (n : Nat) : Nat :=
  (toString n).length

/-- The decimal exponent of a positive fraction: the `e` with `10 ^ e ≤ n / d < 10 ^ (e + 1)`. It is
the difference in length of the two numbers, or one less. -/
def decimalExponent (n d : Nat) : Int :=
  let e : Int := (digitCount n : Int) - digitCount d
  let atLeast : Bool := if 0 ≤ e then d * powerOfTen e.toNat ≤ n else d ≤ n * powerOfTen (-e).toNat
  if atLeast then e else e - 1

namespace Decimal

/-- The exponent of the first digit. -/
def leading (d : Decimal) : Int :=
  d.exponent + digitCount d.digits - 1

/-- The number of double precision nearest to a decimal. Decimals far beyond both ends of the range
are told by the exponent of their first digit. -/
def toBinary64 (negative : Bool) (d : Decimal) : Binary64 :=
  if d.digits = 0 || d.leading < -400 then .zero negative
  else if 400 < d.leading then .infinity negative
  else if 0 ≤ d.exponent then .ofFraction negative (d.digits * powerOfTen d.exponent.toNat) 1
  else .ofFraction negative d.digits (powerOfTen (-d.exponent).toNat)

/-- The two decimals with a given exponent next to the fraction `n / d`, the nearer one first. -/
def around (n d : Nat) (exponent : Int) : List Decimal :=
  let n := if 0 ≤ exponent then n else n * powerOfTen (-exponent).toNat
  let d := if 0 ≤ exponent then d * powerOfTen exponent.toNat else d
  let nearer := divideHalfEven n d
  let other := if nearer = n / d then nearer + 1 else n / d
  [⟨nearer, exponent⟩, ⟨other, exponent⟩]

end Decimal

namespace Binary64

/-- The size of a number as a decimal, in all its digits. -/
def allDigits (x : Binary64) : Decimal :=
  if 0 ≤ x.exponent then ⟨x.significand * powerOfTwo x.exponent.toNat, 0⟩
  else
    let places := (-x.exponent).toNat
    ⟨x.significand * powerOfTen places / powerOfTwo places, x.exponent⟩

/-- The size of a number as a decimal, in the fewest digits that read back. At most 17 are needed. -/
def shortest (x : Binary64) : Decimal :=
  if x.significand = 0 then ⟨0, 0⟩
  else
    let (n, d) := x.fraction
    let first := decimalExponent n d
    let found := (List.range 17).findSome? fun (more : Nat) =>
      (Decimal.around n d (first - more)).find? fun decimal => decimal.toBinary64 x.negative = x
    found.getD x.allDigits

end Binary64

end Reconciler
