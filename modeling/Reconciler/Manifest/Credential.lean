import Reconciler.Manifest.Metadata

/-! # Credentials

A generated password is kept in a Secret that has the name of its parent, where the workloads look it
up.
-/

namespace Reconciler.Manifest

/-- The name of the Secret of a parent. -/
def credentialName (parent : Value) : Except Fault Value :=
  nameOf parent

def credential (parent password : Value) : Except Fault Value := do
  let metadata ← objectMeta parent (← credentialName parent) .null true
  return .object [("apiVersion", .text "v1"), ("kind", .text Kind.secret), ("metadata", metadata),
    ("type", .text "Opaque"), ("stringData", .object [(passwordKey, password)])]

end Reconciler.Manifest
