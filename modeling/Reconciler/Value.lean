import Reconciler.Number.Binary64

/-! # Object values

Everything the reconciler reads, builds and stores is a tree of plain values: the wire form of a
cluster object. An object keeps its fields in the order they were set, because that order is visible
wherever an object is printed; equality of contents (`Value.same`) ignores it.

This module has the type, the two equalities and the total accessors. Reads that may fail are in
`Reconciler.Access`.
-/

namespace Reconciler

/-- A value of a cluster object. A number without a decimal point and an exponent is a whole number of
any size, any other number has double precision. -/
inductive Value where
  | null
  | bool (b : Bool)
  | integer (n : Int)
  | real (x : Binary64)
  | text (s : String)
  | list (items : List Value)
  | object (fields : List (String × Value))
deriving Repr, Inhabited

/-- The fields of an object, in the order they were set. -/
abbrev Fields := List (String × Value)

/-! ## Field lists -/

namespace Fields

/-- The value of the first field named `key`. -/
def find? (key : String) : Fields → Option Value
  | [] => none
  | (k, v) :: rest => if k = key then some v else find? key rest

/-- Whether a field named `key` is present. -/
def contains (key : String) (fields : Fields) : Bool :=
  (find? key fields).isSome

/-- Sets one field: in place when the name is taken, at the end otherwise. -/
def insert (key : String) (value : Value) : Fields → Fields
  | [] => [(key, value)]
  | (k, v) :: rest => if k = key then (key, value) :: rest else (k, v) :: insert key value rest

/-- Sets every field of the second list, in its order. -/
def merge (fields : Fields) : Fields → Fields
  | [] => fields
  | (k, v) :: rest => merge (insert k v fields) rest

/-- Removes the field named `key`. -/
def erase (key : String) : Fields → Fields
  | [] => []
  | (k, v) :: rest => if k = key then rest else (k, v) :: erase key rest

/-- Puts a field into a list sorted by name. Names compare by code point. -/
def insertSorted (field : String × Value) : Fields → Fields
  | [] => [field]
  | other :: rest =>
    if field.1 < other.1 then field :: other :: rest else other :: insertSorted field rest

/-- The fields sorted by name. -/
def sorted : Fields → Fields
  | [] => []
  | field :: rest => insertSorted field (sorted rest)

/-- The field names, in order. -/
def names (fields : Fields) : List String :=
  fields.map (·.1)

end Fields

namespace Value

/-! ## Structural equality -/

mutual

/-- Decides whether two values are the same tree, field order included. -/
def decEq : (a b : Value) → Decidable (a = b)
  | .null, b => match b with
    | .null => isTrue rfl
    | .bool _ | .integer _ | .real _ | .text _ | .list _ | .object _ => isFalse nofun
  | .bool x, b => match b with
    | .bool y => if h : x = y then isTrue (h ▸ rfl) else isFalse fun e => h (by injection e)
    | .null | .integer _ | .real _ | .text _ | .list _ | .object _ => isFalse nofun
  | .integer x, b => match b with
    | .integer y => if h : x = y then isTrue (h ▸ rfl) else isFalse fun e => h (by injection e)
    | .null | .bool _ | .real _ | .text _ | .list _ | .object _ => isFalse nofun
  | .real x, b => match b with
    | .real y => if h : x = y then isTrue (h ▸ rfl) else isFalse fun e => h (by injection e)
    | .null | .bool _ | .integer _ | .text _ | .list _ | .object _ => isFalse nofun
  | .text x, b => match b with
    | .text y => if h : x = y then isTrue (h ▸ rfl) else isFalse fun e => h (by injection e)
    | .null | .bool _ | .integer _ | .real _ | .list _ | .object _ => isFalse nofun
  | .list xs, b => match b with
    | .list ys => match decEqItems xs ys with
      | isTrue h => isTrue (h ▸ rfl)
      | isFalse h => isFalse fun e => h (by injection e)
    | .null | .bool _ | .integer _ | .real _ | .text _ | .object _ => isFalse nofun
  | .object xs, b => match b with
    | .object ys => match decEqFields xs ys with
      | isTrue h => isTrue (h ▸ rfl)
      | isFalse h => isFalse fun e => h (by injection e)
    | .null | .bool _ | .integer _ | .real _ | .text _ | .list _ => isFalse nofun

/-- `decEq` on the items of two lists. -/
def decEqItems : (xs ys : List Value) → Decidable (xs = ys)
  | [], [] => isTrue rfl
  | [], _ :: _ | _ :: _, [] => isFalse nofun
  | x :: xs, y :: ys => match decEq x y, decEqItems xs ys with
    | isTrue h, isTrue t => isTrue (h ▸ t ▸ rfl)
    | isFalse h, _ => isFalse fun e => h (by injection e)
    | _, isFalse t => isFalse fun e => t (by injection e)

/-- `decEq` on the fields of two objects. -/
def decEqFields : (xs ys : List (String × Value)) → Decidable (xs = ys)
  | [], [] => isTrue rfl
  | [], _ :: _ | _ :: _, [] => isFalse nofun
  | (k, v) :: xs, (l, w) :: ys =>
    if n : k = l then
      match decEq v w, decEqFields xs ys with
      | isTrue h, isTrue t => isTrue (n ▸ h ▸ t ▸ rfl)
      | isFalse h, _ => isFalse fun e => h (by injection e with e _; injection e)
      | _, isFalse t => isFalse fun e => t (by injection e)
    else isFalse fun e => n (by injection e with e _; injection e)

end

instance : DecidableEq Value := decEq

/-! ## Equality of contents -/

/-- The number a value counts as. A truth value counts as 0 or 1. -/
def number? : Value → Option Rat
  | .bool b => some (if b then 1 else 0)
  | .integer n => some n
  | .real x => some x.toRat
  | _ => none

/-- The whole number a value counts as, when it has no decimal point. -/
def whole? : Value → Option Int
  | .bool b => some (if b then 1 else 0)
  | .integer n => some n
  | _ => none

mutual

/-- Equality as conditions and drift checks see it: numbers by their value, whatever their form, and
objects by their fields in any order. -/
def same : Value → Value → Bool
  | .null, .null => true
  | .text a, .text b => a == b
  | .list xs, .list ys => sameItems xs ys
  | .object xs, .object ys => xs.length == ys.length && sameFields xs ys
  | a, b => match a.number?, b.number? with
    | some p, some q => p == q
    | _, _ => false

/-- `same` item by item. -/
def sameItems : List Value → List Value → Bool
  | [], [] => true
  | x :: xs, y :: ys => same x y && sameItems xs ys
  | _, _ => false

/-- Every field of the first list is in the second, with the same content. -/
def sameFields : List (String × Value) → List (String × Value) → Bool
  | [], _ => true
  | (k, v) :: rest, ys =>
    (match Fields.find? k ys with
     | some w => same v w
     | none => false) && sameFields rest ys

end

/-! ## Total accessors -/

/-- Null, false, zero and everything empty count as absent; all other values count as given. -/
def truthy : Value → Bool
  | .null => false
  | .bool b => b
  | .integer n => n != 0
  | .real x => x.significand != 0
  | .text s => s != ""
  | .list items => !items.isEmpty
  | .object fields => !fields.isEmpty

/-- The value itself when it counts as given, a default otherwise. -/
def orElse (value default : Value) : Value :=
  if value.truthy then value else default

/-- Whether the value is null. -/
def isNull : Value → Bool
  | .null => true
  | _ => false

/-- Whether the value is this very string. -/
def isText (s : String) : Value → Bool
  | .text t => t == s
  | _ => false

/-- A field of an object; `none` when it is absent or the value is not an object. -/
def field? (key : String) : Value → Option Value
  | .object fields => Fields.find? key fields
  | _ => none

/-- Lists and objects cannot name anything: they are refused as a lookup key. -/
def nameable : Value → Bool
  | .list _ | .object _ => false
  | _ => true

end Value

end Reconciler
