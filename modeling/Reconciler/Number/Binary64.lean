import Reconciler.Number.Rounding

/-! # Numbers of double precision

A number of double precision is a whole significand of at most 53 bits times a power of two. It has a
sign, even when it is zero. The exponent is never below −1074, so numbers close to zero have fewer
bits. Numbers are too large from `2 ^ 1024` on: rounding makes all of them one number so large that no
number in range that is added to it, and none but zero that it is multiplied by, brings it back.
-/

namespace Reconciler

/-- The number `significand * 2 ^ exponent`, with a sign. -/
structure Binary64 where
  negative : Bool
  significand : Nat
  exponent : Int
deriving DecidableEq, Repr, Inhabited

/-- The binary exponent of a positive fraction: the `e` with `2 ^ e ≤ n / d < 2 ^ (e + 1)`. It is the
difference in length of the two numbers, or one less. -/
def binaryExponent (n d : Nat) : Int :=
  let e : Int := (Nat.log2 n : Int) - Nat.log2 d
  let atLeast : Bool := if 0 ≤ e then d * powerOfTwo e.toNat ≤ n else d ≤ n * powerOfTwo (-e).toNat
  if atLeast then e else e - 1

namespace Binary64

def zero (negative : Bool) : Binary64 := ⟨negative, 0, -1074⟩

/-- What numbers that are too large are rounded to. -/
def infinity (negative : Bool) : Binary64 := ⟨negative, powerOfTwo 52, 4096⟩

/-- Whether a number is too large. -/
def infinite (x : Binary64) : Bool := 972 ≤ x.exponent

/-- The number nearest to the fraction `n / d`, and of two equally near ones the one with the even
significand. -/
def ofFraction (negative : Bool) (n d : Nat) : Binary64 :=
  if n = 0 then zero negative
  else
    -- the least exponent that leaves 53 bits, or the least one there is
    let exponent := if binaryExponent n d < -1022 then -1074 else binaryExponent n d - 52
    let significand :=
      if 0 ≤ exponent then divideHalfEven n (d * powerOfTwo exponent.toNat)
      else divideHalfEven (n * powerOfTwo (-exponent).toNat) d
    -- rounding up may make a 54th bit
    let x : Binary64 :=
      if significand = powerOfTwo 53 then ⟨negative, powerOfTwo 52, exponent + 1⟩
      else ⟨negative, significand, exponent⟩
    if x.infinite then infinity negative else x

/-- The number nearest to a rational. -/
def ofRat (q : Rat) : Binary64 :=
  ofFraction (q.num < 0) q.num.natAbs q.den

/-- The size of a number, as a fraction. -/
def fraction (x : Binary64) : Nat × Nat :=
  if 0 ≤ x.exponent then (x.significand * powerOfTwo x.exponent.toNat, 1)
  else (x.significand, powerOfTwo (-x.exponent).toNat)

def toRat (x : Binary64) : Rat :=
  let size : Rat := (x.fraction.1 : Rat) / (x.fraction.2 : Rat)
  if x.negative then -size else size

end Binary64

end Reconciler
