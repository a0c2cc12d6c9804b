import Reconciler.Access
import Reconciler.Text.Blank

/-! # Type descriptors

A descriptor names what a provisioner produces, for example `<Database<SQL<acme:pg:ha:14>>>`: a type, a
kind, and the vendor, product, variant and version of the specific implementation.

* `Descriptor.parse`: reading, with a complaint about the first rule a text breaks;
* `Descriptor.print`: the text a descriptor is read from.
-/

namespace Reconciler

/-- The specific implementation in a descriptor. -/
structure Specific where
  vendor : String
  product : String
  variant : String
  version : String
deriving DecidableEq, Repr

/-- What a provisioner produces. -/
structure Descriptor where
  type : String
  kind : String
  specific : Specific
deriving DecidableEq, Repr

/-- The pieces of a text between the occurrences of a separator; always at least one. -/
def piecesAt (separator : Char) : List Char → List (List Char)
  | [] => [[]]
  | c :: rest =>
    if c = separator then [] :: piecesAt separator rest
    else match piecesAt separator rest with
      | [] => [[c]]
      | piece :: pieces => (c :: piece) :: pieces

namespace Specific

/-- The specific implementation as it is written. -/
def print (s : Specific) : String :=
  s!"{s.vendor}:{s.product}:{s.variant}:{s.version}"

/-- Reads four non-empty pieces separated by colons. -/
def parse (src : String) : Except Fault Specific :=
  match piecesAt ':' src.toList with
  | [vendor, product, variant, version] =>
    if vendor.isEmpty || product.isEmpty || variant.isEmpty || version.isEmpty then complaint
    else .ok ⟨.ofList vendor, .ofList product, .ofList variant, .ofList version⟩
  | _ => complaint
where
  /-- What is said about a text of another form. -/
  complaint : Except Fault Specific :=
    .error (.build s!"expected Vendor:Product:Variant:Version, got {quoted src}")

end Specific

namespace Descriptor

/-- The descriptor as it is written. -/
def print (d : Descriptor) : String :=
  s!"<{d.type}<{d.kind}<{d.specific.print}>>>"

/-- What closes a descriptor. -/
def closing : List Char := ['>', '>', '>']

/-- Reads a descriptor, white space around it aside. -/
def parseText (src : String) : Except Fault Descriptor :=
  let text := trim src.toList
  if closing.isSuffixOf text then
    match piecesAt '<' (text.take (text.length - closing.length)) with
    -- three opening brackets, the first of which begins the text
    | [[], type, kind, specific] =>
      if type.isEmpty || kind.isEmpty then complaint "has an empty Type or Kind"
      else if type.contains '>' || kind.contains '>' || specific.contains '>' then
        complaint "has unbalanced brackets"
      else do
        let specific ← Specific.parse (.ofList specific)
        return ⟨.ofList type, .ofList kind, specific⟩
    | _ => complaint "must look like <Type<Kind<Specific>>>"
  else complaint "must end with '>>>'"
where
  /-- What is said about a text of another form. -/
  complaint (what : String) : Except Fault Descriptor :=
    .error (.build s!"type descriptor {quoted src} {what}")

/-- Reads the descriptor in a spec, where it may be absent. -/
def parse (src : Value) : Except Fault Descriptor :=
  if src.truthy then
    match src with
    | .text s => parseText s
    | _ => .error .noAttribute
  else .error (.build "type descriptor is empty")

/-- The discovery labels of a provisioner with this descriptor. -/
def labels (d : Descriptor) : Fields :=
  [("type", .text d.type), ("kind", .text d.kind), ("vendor", .text d.specific.vendor),
   ("product", .text d.specific.product), ("variant", .text d.specific.variant),
   ("version", .text d.specific.version)]

end Descriptor

end Reconciler
