import Reconciler.Access

/-! # Resource identities

A resource of a known kind is identified by its namespace and name. Both come out of metadata, so they
may be any value; a well-formed one has two texts.
-/

namespace Reconciler

structure Identity where
  ns : Value
  name : Value
deriving DecidableEq, Repr

namespace Identity

/-- The identity in an object's metadata. The namespace may be absent, the name may not. -/
def ofMeta (metadata : Value) : Except Fault Identity := do
  let ns ← metadata.fieldOr "namespace" (.text "default")
  let name ← metadata.require "name"
  return ⟨ns, name⟩

/-- The identity as messages show it. -/
def shown (id : Identity) : String :=
  s!"{id.ns.shown}/{id.name.shown}"

end Identity

end Reconciler
