import Reconciler.Fault

/-! # Reading and changing values

Objects come from outside and may have any shape, so reading them can fail. An optional read asks an
object for a field and has an answer for the case that it is absent; a required read fails when it is.
Both fail on a value that is no object, each in its own way.
-/

namespace Reconciler.Value

/-! ## Reads -/

/-- An optional read: the field, or `default` when the object does not have it. -/
def fieldOr (v : Value) (key : String) (default : Value) : Except Fault Value :=
  match v with
  | .object fields => .ok ((Fields.find? key fields).getD default)
  | _ => .error .noAttribute

/-- An optional read that answers null for an absent field. -/
def fieldOrNull (v : Value) (key : String) : Except Fault Value :=
  v.fieldOr key .null

/-- A required read. -/
def require (v : Value) (key : String) : Except Fault Value :=
  match v with
  | .object fields =>
    match Fields.find? key fields with
    | some w => .ok w
    | none => .error (.missingField (.text key))
  | _ => .error .wrongShape

/-- What a value yields when it is gone through: the items of a list, the names of an object's fields,
the characters of a text. -/
def elements : Value → Except Fault (List Value)
  | .list items => .ok items
  | .object fields => .ok (fields.map fun (k, _) => .text k)
  | .text s => .ok (s.toList.map fun c => .text (String.ofList [c]))
  | _ => .error .wrongShape

/-- Whether a text occurs in another. -/
def occursIn (part : List Char) : List Char → Bool
  | [] => part.isEmpty
  | c :: rest => part.isPrefixOf (c :: rest) || occursIn part rest

/-- Whether a value contains a name: as a field, as an item, or as a part of a text. -/
def holds (v : Value) (name : String) : Except Fault Bool :=
  match v with
  | .object fields => .ok (Fields.contains name fields)
  | .list items => .ok (items.any fun w => w.isText name)
  | .text s => .ok (occursIn name.toList s.toList)
  | _ => .error .wrongShape

/-! ## Copies -/

/-- A field given as a pair: a list of two elements, or a text of two characters. -/
def pairAt (index : Nat) (v : Value) : Except Fault (String × Value) := do
  match ← v.elements with
  | [key, value] => match key with
    | .text k => .ok (k, value)
    | _ => .error .wrongShape
  | parts => .error (.badValue
      s!"dictionary update sequence element #{index} has length {parts.length}; 2 is required")

/-- The fields given by a list of pairs, numbered from `index`. -/
def pairsFrom (index : Nat) (fields : Fields) : List Value → Except Fault Fields
  | [] => .ok fields
  | v :: rest => do
    let (k, w) ← pairAt index v
    pairsFrom (index + 1) (Fields.insert k w fields) rest

/-- A value copied into an object: the fields of an object, or those given by a sequence of pairs. -/
def asObject : Value → Except Fault Fields
  | .object fields => .ok fields
  | other => do pairsFrom 0 [] (← other.elements)

/-- The fields of an object that is spread into another. -/
def spread : Value → Except Fault Fields
  | .object fields => .ok fields
  | _ => .error .wrongShape

/-! ## Changes -/

/-- The object with a field added unless it is there already. -/
def withDefault (v : Value) (key : String) (default : Value) : Except Fault Value :=
  match v with
  | .object fields =>
    .ok (.object (if Fields.contains key fields then fields else Fields.insert key default fields))
  | _ => .error .noAttribute

def setField (v : Value) (key : String) (value : Value) : Except Fault Value :=
  match v with
  | .object fields => .ok (.object (Fields.insert key value fields))
  | _ => .error .wrongShape

def overlay (v : Value) (changes : Fields) : Except Fault Value :=
  match v with
  | .object fields => .ok (.object (Fields.merge fields changes))
  | _ => .error .noAttribute

end Reconciler.Value
