/-! # Powers of ten and two

The scales of decimal and of binary numbers.
-/

namespace Reconciler

def powerOfTen (n : Nat) : Nat := Nat.pow 10 n

def powerOfTwo (n : Nat) : Nat := Nat.pow 2 n

end Reconciler
