import Reconciler.Number.Shortest

/-! # Decimal forms of numbers

Computed quantities are exact rationals, so their decimal forms are exact too: the decimal of the
requested length nearest to the number, and the even one when two are equally near. Numbers of double
precision that are part of an object have the shortest form that reads back.
-/

namespace Reconciler

/-- A natural number in decimal, padded with zeros on the left. -/
def padded (width n : Nat) : String :=
  let digits := toString n
  String.ofList (List.replicate (width - digits.length) '0') ++ digits

/-- The decimal form of `m / 10 ^ scale`, with `scale` digits after the point; without a point when
there are none. -/
def pointed (m scale : Nat) : String :=
  if scale = 0 then toString m
  else toString (m / powerOfTen scale) ++ "." ++ padded scale (m % powerOfTen scale)

/-- Removes zeros at the end of a fraction, and the decimal point when nothing follows it. -/
def withoutTrailingZeros (s : String) : String :=
  if s.contains '.' then
    match s.toList.reverse.dropWhile (· = '0') with
    | '.' :: rest => String.ofList rest.reverse
    | rest => String.ofList rest.reverse
  else s

/-- The exponent of a number in scientific form: signed, with at least two digits. -/
def exponentMark (e : Int) : String :=
  "e" ++ (if e < 0 then "-" else "+") ++ padded 2 e.natAbs

/-- What a number that is too large is written as. -/
def infinityMark : String := "inf"

/-- A rational with six digits after the decimal point. -/
def sixPlaces (q : Rat) : String :=
  (if q.num < 0 then "-" else "")
    ++ (if q.den * powerOfTwo 1024 ≤ q.num.natAbs then infinityMark
      else pointed (divideHalfEven (q.num.natAbs * powerOfTen 6) q.den) 6)

/-- A rational with at most six significant digits, in scientific form when its exponent is below
−4 or above 5. -/
def sixSignificant (q : Rat) : String :=
  if q.num = 0 then "0" else
  let n := q.num.natAbs
  let first := decimalExponent n q.den
  -- the six significant digits, as a whole number; rounding up may make a seventh
  let scaled (e : Int) : Nat :=
    if 5 ≤ e then divideHalfEven n (q.den * powerOfTen (e - 5).toNat)
    else divideHalfEven (n * powerOfTen (5 - e).toNat) q.den
  let e := if scaled first = powerOfTen 6 then first + 1 else first
  let digits := scaled e
  let body :=
    if e < -4 || 6 ≤ e then withoutTrailingZeros (pointed digits 5) ++ exponentMark e
    else withoutTrailingZeros (pointed digits (5 - e).toNat)
  (if q.num < 0 then "-" else "") ++ body

/-- A decimal, in scientific form when its exponent is below −4 or above 15, and otherwise with a
decimal point that at least one digit follows. -/
def Decimal.shown (d : Decimal) : String :=
  let e := d.leading
  if e < -4 || 16 ≤ e then
    withoutTrailingZeros (pointed d.digits (digitCount d.digits - 1)) ++ exponentMark e
  else
    let body :=
      if 0 ≤ d.exponent then toString (d.digits * powerOfTen d.exponent.toNat)
      else withoutTrailingZeros (pointed d.digits (-d.exponent).toNat)
    if body.contains '.' then body else body ++ ".0"

/-- A number of double precision in its shortest form. -/
def Binary64.shown (x : Binary64) : String :=
  (if x.negative then "-" else "") ++ (if x.infinite then infinityMark else x.shortest.shown)

end Reconciler
