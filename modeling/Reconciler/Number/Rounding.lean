import Reconciler.Number.Power

/-! # Rounding to whole numbers

A quotient that is no whole number is rounded to the nearest one, and to the even one when two are
equally near.
-/

namespace Reconciler

/-- The quotient of two natural numbers rounded to the nearest, ties to even. -/
def divideHalfEven (n d : Nat) : Nat :=
  let q := n / d
  let twice := 2 * (n % d)
  if twice < d then q else if d < twice then q + 1 else if q % 2 == 0 then q else q + 1

/-- The integer nearest to a rational, ties to even. -/
def roundHalfEven (q : Rat) : Int :=
  let size : Int := divideHalfEven q.num.natAbs q.den
  if q.num < 0 then -size else size

end Reconciler
