import Reconciler.Number.Binary64

/-! # Arithmetic of delays and durations

Delays, intervals and durations are rationals together with a rounding rule that is applied to the
result of every single operation. `Arithmetic.exact` never rounds and is the reading under which the
laws of spacing and backoff are stated; `Arithmetic.binary64` rounds as double precision does and is
the one the service runs with.
-/

namespace Reconciler

/-- A rounding rule for the results of arithmetic. -/
structure Arithmetic where
  round : Rat → Rat

namespace Arithmetic

def exact : Arithmetic := ⟨id⟩

/-- Rounding to double precision. -/
def binary64 : Arithmetic := ⟨fun q => (Binary64.ofRat q).toRat⟩

def add (a : Arithmetic) (x y : Rat) : Rat := a.round (x + y)

def sub (a : Arithmetic) (x y : Rat) : Rat := a.round (x - y)

def mul (a : Arithmetic) (x y : Rat) : Rat := a.round (x * y)

def div (a : Arithmetic) (x y : Rat) : Rat := a.round (x / y)

end Arithmetic

end Reconciler
